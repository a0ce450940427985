import ArionDp.Lib.Allocation
import ArionDp.Lib.ApiServer
import ArionDp.Lib.Py
import ArionDp.Lib.Runs
import ArionDp.Manager.Utils
import Mathlib.Data.Finset.Insert

/-!
# The tasks of the operator

FWDs and FTNs in Kubernetes and in `OprStore`, the handlers of the operator for them, and its start from
what Kubernetes has. A handler runs alone.

* `Opr`: the state, `OprObj`: the spec of an FWD or FTN;
* `fwdCreate`, `ftnCreate`, `assignDroplet`: the workflow functions, and what they call;
* `commonCreate`, `commonProvisioned`, `commonDelete`, `commonOperatorStart`: the tasks;
* `oprStep`: a handler, or an object that somebody creates.
-/

namespace ArionDp

open ApiServer Py PyText

/-! ## Objects -/

/-- `KIND.fwd` and `KIND.ftn` -/
inductive Kind
  | fwd
  | ftn
  deriving DecidableEq

/-- An object: its kind and its name. -/
abbrev ObjName := Kind × Text

/-- `obj_status_init` -/
def objStatusInit : Text := "Init".toList

/-- `obj_status_provisioned` -/
def objStatusProvisioned : Text := "Provisioned".toList

/-- The fields of an `Ftn`; an `Fwd` has the first three. -/
structure OprObj where
  status : Text
  dft : Text
  droplet : Text
  parentChain : Text
  augmentedChain : Text
  deriving DecidableEq

/-- `Fwd` and `Ftn` without a spec. -/
def OprObj.new : OprObj := ⟨objStatusInit, [], [], [], []⟩

/-- `set_obj_spec` takes over the fields that the kind has. -/
def setObjSpec : Kind → OprObj → OprObj
  | .fwd, spec => { spec with parentChain := [], augmentedChain := [] }
  | .ftn, spec => spec

/-- The names of droplets, chains and DFTs. Kubernetes has no empty names. -/
structure Names where
  droplets : List Text
  chains : List Text
  dfts : List Text
  named : [] ∉ droplets

/-- No names. -/
def Names.empty : Names := ⟨[], [], [], List.not_mem_nil⟩

/-- **The operator and its objects**: FWDs and FTNs in Kubernetes, the droplets, chains and DFTs there that
are provisioned, and in memory the two parts of `OprStore` and `allocated_droplets`. -/
structure Opr where
  kube : Store ObjName OprObj
  provisioned : Names
  stored : Names
  objs : ObjName → Option OprObj
  allocatedDroplets : Finset Text

/-- How a task fails: with `raise_temporary_error`, which Kopf tries again, or with another exception. -/
inductive TaskError
  | temporary (message : Text)
  | other
  deriving DecidableEq

/-- A part of a task. -/
abbrev Task := Py.Prog TaskError Opr

/-! ## Store and Kubernetes -/

/-- `update_obj` of the store -/
def storeUpdateObj (n : ObjName) (obj : OprObj) : Task Unit :=
  modifyState fun s => { s with objs := fun m => if m = n then some obj else s.objs m }

/-- `delete_obj` of the store -/
def storeDeleteObj (n : ObjName) : Task Unit :=
  modifyState fun s => { s with objs := fun m => if m = n then none else s.objs m }

/-- `store_get_obj`: the stored object takes over the spec. -/
def storeGetObj (n : ObjName) (spec : OprObj) : Task (Option OprObj) := do
  let s ← getState
  match s.objs n with
  | none => pure none
  | some _ => do
    storeUpdateObj n (setObjSpec n.1 spec)
    pure (some (setObjSpec n.1 spec))

/-- `kube_create_obj`: an object that exists is read instead. -/
def kubeCreateObj (n : ObjName) (obj : OprObj) : Task Unit := do
  let s ← getState
  match s.kube.get? n with
  | some o => storeUpdateObj n (setObjSpec n.1 o.body)
  | none =>
    match s.kube.create n obj with
    | none => raise .other
    | some kube => do
      modifyState fun s => { s with kube := kube }
      storeUpdateObj n obj

/-- `kube_update_obj`: the object is read, and nobody else writes it before it is patched. -/
def kubeUpdateObj (n : ObjName) (obj : OprObj) : Task Unit := do
  let s ← getState
  match s.kube.get? n with
  | none => raise .other
  | some _ => do
    modifyState fun s => { s with kube := s.kube.put n obj }
    storeUpdateObj n obj

/-- `kube_delete_obj`, whose failure is only logged -/
def kubeDeleteObj (n : ObjName) : Task Unit := do
  let s ← getState
  match s.kube.delete n with
  | none => pure ()
  | some kube => modifyState fun s => { s with kube := kube }

/-! ## Droplets -/

/-- `get_unallocated_droplets` -/
def Opr.getUnallocatedDroplets (s : Opr) : List Text :=
  s.stored.droplets.filter fun d => d ∉ s.allocatedDroplets

/-- `random.sample(droplets, 1)[0]`, if there are any; `draw` is what is random about it -/
def sample (draw : ℕ) (droplets : List Text) : Option Text := droplets[draw % droplets.length]?

/-- `assign_droplet`, with the object as it is afterwards -/
def assignDroplet (draw : ℕ) (obj : OprObj) : Task OprObj := do
  let s ← getState
  match sample draw s.getUnallocatedDroplets with
  | none => pure obj
  | some d => do
    modifyState fun s => { s with allocatedDroplets := insert d s.allocatedDroplets }
    pure { obj with droplet := d }

/-- `fwd_create` -/
def fwdCreate (draw : ℕ) (fwd : Option OprObj) (spec : OprObj) : Task OprObj := do
  let s ← getState
  let fwd := fwd.getD (setObjSpec .fwd spec)
  if fwd.dft ∉ s.stored.dfts then
    raise (.temporary ("DFT ".toList ++ fwd.dft ++ " not yet created!".toList))
  else if s.getUnallocatedDroplets.length < 1 then
    raise (.temporary "No droplets available for FWD".toList)
  else assignDroplet draw fwd

/-- `ftn_create` -/
def ftnCreate (draw : ℕ) (ftn : Option OprObj) (spec : OprObj) : Task OprObj := do
  let s ← getState
  let ftn := ftn.getD (setObjSpec .ftn spec)
  if ftn.dft ∉ s.stored.dfts then
    raise (.temporary ("Parent DFT ".toList ++ ftn.dft ++ " not yet created!".toList))
  else if ftn.parentChain ∉ s.stored.chains then
    raise (.temporary ("Parent Chain ".toList ++ ftn.parentChain ++ " not yet created!".toList))
  else if s.getUnallocatedDroplets.length < 1 then
    raise (.temporary "No droplets available for FTN".toList)
  else assignDroplet draw ftn

/-! ## Tasks -/

/-- The workflow function that creates an object. -/
def createFunc (draw : ℕ) : Kind → Option OprObj → OprObj → Task OprObj
  | .fwd => fwdCreate draw
  | .ftn => ftnCreate draw

/-- `set_object_provisioned` -/
def setObjectProvisioned (n : ObjName) (obj : OprObj) : Task Unit := do
  let obj := { obj with status := objStatusProvisioned }
  storeUpdateObj n obj
  kubeUpdateObj n obj

/-- `CommonCreate` -/
def commonCreate (draw : ℕ) (n : ObjName) (spec : OprObj) : Task Unit := do
  let obj ← storeGetObj n spec
  let obj ← createFunc draw n.1 obj spec
  setObjectProvisioned n obj

/-- `CommonProvisioned`, whose workflow functions only write to the log -/
def commonProvisioned (n : ObjName) (spec : OprObj) : Task Unit := do
  let obj ← storeGetObj n spec
  match obj with
  | none => raise .other
  | some obj => storeUpdateObj n obj

/-- `CommonDelete`, whose workflow functions only write to the log -/
def commonDelete (n : ObjName) (spec : OprObj) : Task Unit := do
  let obj ← storeGetObj n spec
  match obj with
  | none => raise .other
  | some _ => do
    storeDeleteObj n
    kubeDeleteObj n

/-- `create_n_ftns`, for the FTNs themselves -/
def createNFtns (chain dft : Text) (size : ℕ) : Task Unit :=
  forEach (fun i : ℕ => kubeCreateObj (.ftn, chain ++ "-ftn-".toList ++ pyStr i)
    { OprObj.new with parentChain := chain, dft := dft }) (List.range size)

/-! ## Start -/

/-- `query_existing_droplets` -/
def queryExistingDroplets : Task Unit :=
  modifyState fun s => { s with stored := ⟨s.provisioned.droplets, s.stored.chains, s.stored.dfts,
    s.provisioned.named⟩ }

/-- A provisioned object of a kind is stored. -/
def storeExisting (kind : Kind) (s : Opr) (n : ObjName) : Option OprObj :=
  match s.kube.get? n with
  | some o =>
    if n.1 = kind ∧ o.body.status = objStatusProvisioned then some (setObjSpec kind o.body) else s.objs n
  | none => s.objs n

/-- `query_existing_fwds` and `query_existing_ftns` -/
def queryExisting (kind : Kind) : Task Unit :=
  modifyState fun s => { s with objs := storeExisting kind s }

/-- `query_existing_chains` -/
def queryExistingChains : Task Unit :=
  modifyState fun s => { s with stored := { s.stored with chains := s.provisioned.chains } }

/-- `query_existing_dfts` -/
def queryExistingDfts : Task Unit :=
  modifyState fun s => { s with stored := { s.stored with dfts := s.provisioned.dfts } }

/-- `default_dft` -/
def defaultDft : Text := "dft0".toList

/-- `default_n_replicas` -/
def defaultNReplicas : ℕ := 3

/-- `create_default_dft` -/
def createDefaultDft : Task Unit :=
  modifyState fun s => { s with stored := { s.stored with
    dfts := if defaultDft ∈ s.stored.dfts then s.stored.dfts else s.stored.dfts ++ [defaultDft] } }

/-- `create_default_fwds` -/
def createDefaultFwds (n : ℕ) (dft : Text) : Task Unit :=
  forEach (fun i : ℕ => kubeCreateObj (.fwd, dft ++ "-fwd-".toList ++ pyStr i)
    { OprObj.new with dft := dft }) (List.range n)

/-- `CommonOperatorStart` -/
def commonOperatorStart : Task Unit := do
  queryExistingDroplets
  queryExisting .fwd
  queryExisting .ftn
  queryExistingChains
  queryExistingDfts
  createDefaultDft
  createDefaultFwds defaultNReplicas defaultDft

/-- An operator that has just been started: its memory is empty. -/
def Opr.restarted (s : Opr) : Opr :=
  { s with stored := .empty, objs := fun _ => none, allocatedDroplets := ∅ }

/-! ## Steps -/

/-- What happens to FWDs and FTNs: somebody creates one in Kubernetes, a chain creates its FTNs, a handler
runs for an object, the operator is restarted. The handlers of droplets, chains and DFTs store and provision
others. -/
inductive OprAct
  | apply (n : ObjName) (spec : OprObj)
  | chainFtns (chain dft : Text) (size : ℕ)
  | init (n : ObjName) (draw : ℕ)
  | provisioned (n : ObjName)
  | delete (n : ObjName)
  | restart
  | others (provisioned stored : Names)

/-- The object is gone from Kubernetes once its deletion has been handled, whether the handler fails or not. -/
def Opr.gone (n : ObjName) (s : Opr) : Opr := (kubeDeleteObj n s).2

/-- A handler for an object runs with its spec, if it has the status. -/
def handle (n : ObjName) (status : OprObj → Bool) (task : OprObj → Task Unit) (s : Opr) : Option Opr :=
  match s.kube.get? n with
  | none => none
  | some o => if status o.body then some (task o.body s).2 else none

/-- **One step.** -/
def oprStep : OprAct → Opr → Option Opr
  | .apply n spec, s => (s.kube.create n spec).map fun kube => { s with kube := kube }
  | .chainFtns chain dft size, s => some (createNFtns chain dft size s).2
  | .init n draw, s => handle n (fun o => o.status = objStatusInit) (commonCreate draw n) s
  | .provisioned n, s => handle n (fun o => o.status = objStatusProvisioned) (commonProvisioned n) s
  | .delete n, s => (handle n (fun _ => true) (commonDelete n) s).map (Opr.gone n)
  | .restart, s => some (commonOperatorStart s.restarted).2
  | .others provisioned stored, s => some { s with provisioned := provisioned, stored := stored }

end ArionDp
