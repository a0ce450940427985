import ArionDp.Dmn.Droplet
import ArionDp.Lib.Descriptors
import ArionDp.Lib.Py
import ArionDp.Lib.Runs

/-!
# Loading and unloading programs

`trn_transit_xdp_usr.c` and the requests that reach it, with the calls of libbpf that may fail: the
transit program of each interface, the side programs of the jump table, the descriptors that
`trn_xdp_bpfmaps` and `ebpf_progs` remember, and what is attached to interfaces. A function that returns
something else than 0 raises.

* `Libbpf`: how the calls of one request come out;
* `Daemon`: descriptors, pins and attachments in the kernel, and the variables of the file;
* `trnProgLoad`, `trnTransitXdpLoad`, `trnTransitXdpUnload`, `trnTransitEbpfLoad`,
  `trnTransitEbpfUnload`, and the endpoint calls;
* `Rpc`, `Rpc.run`: requests, and the state after one.
-/

namespace ArionDp

open Py Descriptors Wire

/-! ## Maps and programs -/

/-- The maps of the transit program, in the order of its object. -/
inductive MapName
  | jmpTable
  | endpointsMap
  | sgCidrMap
  | securityGroupMap
  | portRangeMap
  | xsksMap
  | ifConfigMap
  | interfacesMap
  | xdpcapHook
  deriving DecidableEq

def MapName.all : List MapName :=
  [.jmpTable, .endpointsMap, .sgCidrMap, .securityGroupMap, .portRangeMap, .xsksMap, .ifConfigMap,
    .interfacesMap, .xdpcapHook]

/-- The names of the maps in the object. -/
def MapName.name : MapName → String
  | .jmpTable => "jmp_table"
  | .endpointsMap => "endpoints_map"
  | .sgCidrMap => "sg_cidr_map"
  | .securityGroupMap => "security_group_map"
  | .portRangeMap => "port_range_map"
  | .xsksMap => "xsks_map"
  | .ifConfigMap => "if_config_map"
  | .interfacesMap => "interfaces_map"
  | .xdpcapHook => "xdpcap_hook"

/-- `shared` of `trn_xdp_bpfmaps` -/
def MapName.shared (m : MapName) : Bool := m ≠ .xdpcapHook

/-- `TRAN_MAX_PROG` -/
abbrev tranMaxProg : ℕ := 5

instance : NeZero tranMaxProg := ⟨by decide⟩

/-- What a descriptor stands for. -/
inductive BpfFile
  | map (m : MapName)
  | prog (idx : Fin tranMaxProg)
  deriving DecidableEq

/-- A program of the metadata: `&md->objs[i].xdp` or `&md->ebpf_progs[idx]`. -/
inductive ProgRef
  | main (i : Fin tranItfMapMax)
  | side (idx : Fin tranMaxProg)
  deriving DecidableEq

/-- The index of a program; `TRAN_TRANSIT_PROG` is 0. -/
def ProgRef.idx : ProgRef → Fin tranMaxProg
  | .main _ => 0
  | .side idx => idx

/-- The maps of a program's object. The side programs have none. -/
def ProgRef.maps : ProgRef → List MapName
  | .main _ => MapName.all
  | .side _ => []

/-! ## State -/

/-- `trn_xdp_map_t`, with the object of `map` -/
structure TrnXdpMap where
  fd : ℤ
  map : Option ℕ

/-- `trn_prog_t`, with the interface that `pcapfile` ends in -/
structure TrnProg where
  progFd : ℤ
  progId : ℕ
  obj : Option ℕ
  pcapfile : List Char

/-- The files that maps are pinned to: of their name, or the `pcapfile` of a program. -/
inductive PinFile
  | pinPath (m : MapName)
  | pcapfile (interface : List Char)
  deriving DecidableEq

/-- The file of a map of a program. -/
def TrnProg.pinfile (prog : TrnProg) (progIdx : Fin tranMaxProg) (m : MapName) : PinFile :=
  if progIdx = 0 ∧ m.name = "xdpcap_hook_map" then .pcapfile prog.pcapfile else .pinPath m

/-- No map has the name that the source looks for, so every map is pinned to the file of its own name. -/
theorem TrnProg.pinfile_eq (prog : TrnProg) (progIdx : Fin tranMaxProg) (m : MapName) :
    prog.pinfile progIdx m = .pinPath m := by
  refine if_neg fun h => absurd h.2 ?_
  cases m <;> decide

/-- `trn_xdp_object_t` -/
structure TrnXdpObject where
  eth : TrnIface
  xdp : TrnProg

/-- `user_metadata_t` -/
structure UserMetadata where
  ready : Bool
  objs : Fin tranItfMapMax → TrnXdpObject
  ebpfProgs : Fin tranMaxProg → TrnProg

/-- The metadata after `memset`. -/
def UserMetadata.zero : UserMetadata where
  ready := false
  objs _ := ⟨⟨0, 0, 0, 0⟩, ⟨0, 0, none, []⟩⟩
  ebpfProgs _ := ⟨0, 0, none, []⟩

def ProgRef.get (p : ProgRef) (md : UserMetadata) : TrnProg :=
  match p with
  | .main i => (md.objs i).xdp
  | .side idx => md.ebpfProgs idx

def ProgRef.update (p : ProgRef) (f : TrnProg → TrnProg) (md : UserMetadata) : UserMetadata :=
  match p with
  | .main i => { md with
      objs := fun j => if j = i then ⟨(md.objs j).eth, f (md.objs j).xdp⟩ else md.objs j }
  | .side idx => { md with
      ebpfProgs := fun j => if j = idx then f (md.ebpfProgs j) else md.ebpfProgs j }

/-- The daemon and what it has in the kernel: descriptors, files of pinned maps, the id of the program
on each interface; `uses` are the descriptors it has passed so far. -/
structure Daemon where
  table : Table BpfFile
  pins : PinFile → Bool
  attached : U32 → Option ℕ
  bpfmaps : MapName → TrnXdpMap
  md : Option UserMetadata
  uses : List (Use BpfFile)

/-- The id that the kernel gives to the program of a descriptor. -/
def Daemon.kernelId (s : Daemon) (fd : ℤ) : ℕ :=
  match (s.table.entry fd).bind fun e => e.owner with
  | some o => o + 1
  | none => 0

/-- The interfaces that the droplet requests know. -/
def Daemon.transitd (s : Daemon) (ifNametoindex : List Char → U32) : Transitd where
  ifNametoindex := ifNametoindex
  md := s.md.map fun md i => (md.objs i).eth

/-- The calls that may fail, each with its place in the code. -/
inductive Call
  | setrlimit
  | openFile (p : ProgRef)
  | eachProgram (p : ProgRef)
  | reuseFd (p : ProgRef) (m : MapName)
  | load (p : ProgRef)
  | createMap (p : ProgRef) (m : MapName)
  | nextProgram (p : ProgRef)
  | objGet (p : ProgRef) (m : MapName)
  | pin (p : ProgRef) (m : MapName)
  | unpin (m : MapName)
  | updateJmpTable (idx : Fin tranMaxProg)
  | updateInterfaces (i : Fin tranItfMapMax)
  | attach (i : Fin tranItfMapMax)
  | getInfo (i : Fin tranItfMapMax)
  | queryId (i : Fin tranItfMapMax)
  | detach (i : Fin tranItfMapMax)
  | reattach (i : Fin tranItfMapMax)
  | deleteJmpTable
  | updateEndpoint (i : ℕ)
  | lookupEndpoint
  | deleteEndpoint
  | updateIfConfig
  deriving DecidableEq

/-- How the calls of one request come out: which fail, and the number that the kernel hands out where a
descriptor is opened, if that is not in use. -/
structure Libbpf where
  fails : Call → Bool
  number : Call → ℕ
  ifNametoindex : List Char → U32

/-- A function of the daemon. -/
abbrev Svc := Py.Prog Unit Daemon

/-! ## Calls -/

section Calls

variable (k : Libbpf)

def callLibbpf (c : Call) : Svc Unit := if k.fails c then raise () else pure ()

/-- `bpf_object__open_file` -/
def bpfObjectOpenFile (p : ProgRef) : Svc ℕ := do
  callLibbpf k (.openFile p)
  let s ← getState
  modifyState fun s => { s with table := s.table.openObject }
  pure s.table.next

/-- `bpf_object__close` -/
def bpfObjectClose (obj : Option ℕ) : Svc Unit :=
  match obj with
  | none => pure ()
  | some o => modifyState fun s => { s with table := s.table.closeObject o }

/-- The kernel hands out a number for a part of an object. -/
def giveFd (o : ℕ) (part refers : BpfFile) (c : Call) : Svc Unit := do
  let s ← getState
  match s.table.give o part refers (k.number c) with
  | none => raise ()
  | some t => modifyState fun s => { s with table := t }

/-- `bpf_map__reuse_fd`: a second number for what the first one stands for -/
def bpfMapReuseFd (p : ProgRef) (o : ℕ) (m : MapName) (fd : ℤ) : Svc Unit := do
  callLibbpf k (.reuseFd p m)
  let s ← getState
  match s.table.entry fd with
  | none => raise ()
  | some e => giveFd k o (.map m) e.refers (.reuseFd p m)

/-- A map is created, unless it reuses a descriptor. -/
def createMap (p : ProgRef) (o : ℕ) (m : MapName) : Svc Unit := do
  let s ← getState
  if s.table.partFd o (.map m) < 0 then giveFd k o (.map m) (.map m) (.createMap p m) else pure ()

/-- `bpf_object__load` -/
def bpfObjectLoad (p : ProgRef) (o : ℕ) : Svc Unit := do
  callLibbpf k (.load p)
  forEach (createMap k p o) p.maps
  giveFd k o (.prog p.idx) (.prog p.idx) (.load p)

/-- A descriptor is passed for a map or a program. -/
def passFd (fd : ℤ) (names : BpfFile) : Svc Unit :=
  modifyState fun s => { s with uses := s.uses ++ [s.table.pass fd names] }

/-- A call with the descriptor of a map. -/
def bpfMapCall (fd : ℤ) (m : MapName) (c : Call) : Svc Unit := do
  passFd fd (.map m)
  callLibbpf k c

/-- `bpf_map_update_elem` -/
def bpfMapUpdateElem := bpfMapCall

/-- `bpf_map_lookup_elem` -/
def bpfMapLookupElem := bpfMapCall

/-- `bpf_map_delete_elem` -/
def bpfMapDeleteElem := bpfMapCall

/-- `close` -/
def closeFd (fd : ℤ) (names : BpfFile) : Svc Unit := do
  passFd fd names
  modifyState fun s => { s with table := s.table.close fd }

/-- `bpf_obj_get` of the file that a map is pinned to -/
def bpfObjGet (p : ProgRef) (m : MapName) (pinfile : PinFile) : Svc ℤ := do
  callLibbpf k (.objGet p m)
  let s ← getState
  if s.pins pinfile then
    match s.table.openNumber (.map m) (k.number (.objGet p m)) with
    | none => raise ()
    | some t => do
      modifyState fun s => { s with table := t }
      pure (k.number (.objGet p m))
  else raise ()

/-- `bpf_map__pin` -/
def bpfMapPin (p : ProgRef) (m : MapName) (pinfile : PinFile) : Svc Unit := do
  callLibbpf k (.pin p m)
  let s ← getState
  if s.pins pinfile then raise ()
  else modifyState fun s => { s with pins := fun file => file = pinfile || s.pins file }

/-- `bpf_xdp_attach` with a program -/
def bpfXdpAttach (c : Call) (ifaceIndex : U32) (fd : ℤ) : Svc Unit := do
  callLibbpf k c
  modifyState fun s =>
    { s with attached := fun i => if i = ifaceIndex then some (s.kernelId fd) else s.attached i }

/-- `bpf_xdp_attach` with -1, whose result is not used -/
def bpfXdpDetach (c : Call) (ifaceIndex : U32) : Svc Unit :=
  if k.fails c then pure ()
  else modifyState fun s =>
    { s with attached := fun i => if i = ifaceIndex then none else s.attached i }

/-- `bpf_xdp_query_id` -/
def bpfXdpQueryId (c : Call) (ifaceIndex : U32) : Svc ℕ := do
  callLibbpf k c
  let s ← getState
  pure ((s.attached ifaceIndex).getD 0)

/-- `bpf_obj_get_info_by_fd`, for the id -/
def bpfObjGetInfoByFd (c : Call) (fd : ℤ) : Svc ℕ := do
  callLibbpf k c
  let s ← getState
  pure (s.kernelId fd)

end Calls

/-! ## Tables -/

/-- `trn_transit_map_get_fd` -/
def trnTransitMapGetFd (m : MapName) : Svc ℤ := do
  let s ← getState
  pure (s.bpfmaps m).fd

/-- `trn_transit_map_hash` -/
def trnTransitMapHash : Svc Unit := modifyState fun s => { s with bpfmaps := fun _ => ⟨-1, none⟩ }

def setMap (m : MapName) (f : TrnXdpMap → TrnXdpMap) : Svc Unit :=
  modifyState fun s =>
    { s with bpfmaps := fun m' => if m' = m then f (s.bpfmaps m') else s.bpfmaps m' }

def setProg (p : ProgRef) (f : TrnProg → TrnProg) : Svc Unit :=
  modifyState fun s => { s with md := s.md.map (p.update f) }

def UserMetadata.setEth (i : Fin tranItfMapMax) (eth : TrnIface) (md : UserMetadata) : UserMetadata :=
  { md with objs := fun j => if j = i then ⟨eth, (md.objs j).xdp⟩ else md.objs j }

def setEth (i : Fin tranItfMapMax) (eth : TrnIface) : Svc Unit :=
  modifyState fun s => { s with md := s.md.map (UserMetadata.setEth i eth) }

/-- The metadata; without it functions return 1. -/
def getMd : Svc UserMetadata := do
  let s ← getState
  match s.md with
  | none => raise ()
  | some md => pure md

/-! ## Loading an object -/

section Load

variable (k : Libbpf)

/-- One round of the loop of `trn_transit_xdp_pre_load`. -/
def preLoadMap (p : ProgRef) (o : ℕ) (m : MapName) : Svc Unit := do
  setMap m fun xdpmap => { xdpmap with map := xdpmap.map.or (some o) }
  let fd ← trnTransitMapGetFd m
  if m.shared ∧ 0 ≤ fd then bpfMapReuseFd k p o m fd else pure ()

/-- `trn_transit_xdp_pre_load` -/
def trnTransitXdpPreLoad (p : ProgRef) (o : ℕ) : Svc Unit := do
  callLibbpf k (.eachProgram p)
  forEach (preLoadMap k p o) p.maps

/-- Pin a map, or close the descriptor of its file if it is pinned already. -/
def pinMap (p : ProgRef) (m : MapName) (pinfile : PinFile) : Svc Unit :=
  tryExcept (do
    let fd ← bpfObjGet k p m pinfile
    closeFd fd (.map m)) fun _ => some (bpfMapPin k p m pinfile)

/-- One round of the loop of `trn_transit_xdp_post_load`. -/
def postLoadMap (p : ProgRef) (o : ℕ) (m : MapName) : Svc Unit := do
  let md ← getMd
  pinMap k p m ((p.get md).pinfile p.idx m)
  let s ← getState
  if m.shared ∧ (s.bpfmaps m).fd < 0 then
    setMap m fun xdpmap => { xdpmap with fd := s.table.partFd o (.map m) }
  else pure ()

/-- `trn_transit_xdp_post_load` -/
def trnTransitXdpPostLoad (p : ProgRef) (o : ℕ) : Svc Unit := do
  callLibbpf k (.nextProgram p)
  let s ← getState
  setProg p fun prog => { prog with progFd := s.table.partFd o (.prog p.idx) }
  forEach (postLoadMap k p o) p.maps

/-- Steps 2 to 4 of `trn_prog_load`. -/
def loadObject (p : ProgRef) (o : ℕ) : Svc Unit :=
  tryExcept (do
    trnTransitXdpPreLoad k p o
    bpfObjectLoad k p o
    trnTransitXdpPostLoad k p o) fun _ => some do
      bpfObjectClose (some o)
      setProg p fun prog => { prog with obj := none }
      raise ()

/-- `trn_prog_load` -/
def trnProgLoad (p : ProgRef) : Svc Unit := do
  let md ← getMd
  bpfObjectClose (p.get md).obj
  let o ← tryExcept (bpfObjectOpenFile k p) fun _ => some do
    setProg p fun prog => { prog with obj := none }
    raise ()
  setProg p fun prog => { prog with obj := some o }
  loadObject k p o

/-! ## The transit program -/

/-- Add a side program to `jmp_table`. -/
def updateJmpTable (fd : ℤ) (idx : Fin tranMaxProg) (progFd : ℤ) : Svc Unit := do
  passFd progFd (.prog idx)
  bpfMapUpdateElem k fd .jmpTable (.updateJmpTable idx)

/-- The side programs. -/
def sideProgs : List (Fin tranMaxProg) := [1, 2, 3, 4]

/-- The interfaces. -/
def itfMaps : List (Fin tranItfMapMax) := [0, 1]

/-- `trn_transit_xdp_map_initialize` -/
def trnTransitXdpMapInitialize : Svc Unit := do
  let md ← getMd
  let fd ← trnTransitMapGetFd .jmpTable
  if fd < 0 then raise () else do
    forEach (fun idx => updateJmpTable k fd idx (md.ebpfProgs idx).progFd) sideProgs
    let fd ← trnTransitMapGetFd .interfacesMap
    if fd < 0 then pure () else do
      forEach (fun i => bpfMapUpdateElem k fd .interfacesMap (.updateInterfaces i)) itfMaps

/-- `trn_xdp_itf_def`: protocol and role of each interface -/
def trnXdpItfDef : Fin tranItfMapMax → U8 × U8 := ![(0, xdpFwd), (1, xdpFtn)]

/-- One round of step 1 of `trn_transit_xdp_load`. -/
def loadMain (interfaces : Fin tranItfMapMax → List Char) (iboPort : U16) (i : Fin tranItfMapMax) :
    Svc Unit := do
  let ifaceIndex := k.ifNametoindex (interfaces i)
  if ifaceIndex = 0 then raise () else do
    setEth i ⟨ifaceIndex, iboPort, (trnXdpItfDef i).1, (trnXdpItfDef i).2⟩
    setProg (.main i) fun prog => { prog with pcapfile := interfaces i }
    trnProgLoad k (.main i)

/-- One round of the attachment in `trn_transit_xdp_load`. -/
def attachMain (i : Fin tranItfMapMax) : Svc Unit := do
  let md ← getMd
  bpfXdpAttach k (.attach i) (md.objs i).eth.ifaceIndex (md.objs i).xdp.progFd
  let id ← bpfObjGetInfoByFd k (.getInfo i) (md.objs i).xdp.progFd
  setProg (.main i) fun prog => { prog with progId := id }

/-- What `trn_transit_xdp_load` does before it attaches the program. -/
def loadPrograms (interfaces : Fin tranItfMapMax → List Char) (iboPort : U16) : Svc Unit := do
  forEach (loadMain k interfaces iboPort) itfMaps
  forEach (fun idx => trnProgLoad k (.side idx)) sideProgs
  trnTransitXdpMapInitialize k

/-- What `trn_transit_xdp_load` does with the new metadata, up to its label. -/
def loadAndAttach (interfaces : Fin tranItfMapMax → List Char) (iboPort : U16) : Svc Unit := do
  loadPrograms k interfaces iboPort
  forEach (attachMain k) itfMaps
  modifyState fun s => { s with md := s.md.map fun md => { md with ready := true } }

/-- `trn_transit_xdp_load` -/
def trnTransitXdpLoad (interfaces : Fin tranItfMapMax → List Char) (iboPort : U16) : Svc Unit := do
  let s ← getState
  match s.md with
  | some _ => pure ()
  | none => do
    callLibbpf k .setrlimit
    trnTransitMapHash
    modifyState fun s => { s with md := some .zero }
    tryExcept (loadAndAttach k interfaces iboPort) fun _ => some do
      modifyState fun s => { s with md := none }
      raise ()

/-- Detach the program of an interface, unless it is another one by now. -/
def detachOwn (md : UserMetadata) (i : Fin tranItfMapMax) (linkProgId : ℕ) : Svc Unit :=
  if (md.objs i).xdp.progId = linkProgId then bpfXdpDetach k (.detach i) (md.objs i).eth.ifaceIndex
  else pure ()

/-- One round of step 1 of `trn_transit_xdp_unload`. -/
def detachMain (md : UserMetadata) (i : Fin tranItfMapMax) : Svc Unit := do
  let linkProgId ← bpfXdpQueryId k (.queryId i) (md.objs i).eth.ifaceIndex
  detachOwn k md i linkProgId
  bpfXdpAttach k (.reattach i) (md.objs i).eth.ifaceIndex (md.objs i).xdp.progFd

/-- Step 2 of `trn_transit_xdp_unload` removes the file: those of the shared maps. `xdpcap_hook` is not shared, and
is not called `xdpcap_hook_map` either, so that its file stays. -/
def unpinned : PinFile → Bool
  | .pinPath m => m.shared && !k.fails (.unpin m)
  | .pcapfile _ => false

/-- `trn_transit_xdp_unload` -/
def trnTransitXdpUnload : Svc Unit := do
  let s ← getState
  match s.md with
  | none => pure ()
  | some md => do
    forEach (detachMain k md) itfMaps
    modifyState fun s => { s with pins := fun file => s.pins file && !unpinned k file }
    forEach (fun idx => bpfObjectClose (md.ebpfProgs idx).obj) sideProgs
    forEach (fun i => bpfObjectClose (md.objs i).xdp.obj) itfMaps
    modifyState fun s => { s with md := none }

/-! ## Side programs -/

/-- The side program of an index, if it is one. -/
def sideProg? (progIdx : ℤ) : Option (Fin tranMaxProg) :=
  if progIdx ≤ 0 ∨ (tranMaxProg : ℤ) ≤ progIdx then none else some (Fin.ofNat tranMaxProg progIdx.toNat)

/-- `trn_transit_ebpf_load` -/
def trnTransitEbpfLoad (progIdx : ℤ) : Svc Unit := do
  let _ ← getMd
  match sideProg? progIdx with
  | none => raise ()
  | some idx => do
    trnProgLoad k (.side idx)
    let fd ← trnTransitMapGetFd .jmpTable
    if fd < 0 then raise () else do
      let md ← getMd
      updateJmpTable k fd idx (md.ebpfProgs idx).progFd

/-- `trn_transit_ebpf_unload`; the result of the deletion is only logged -/
def trnTransitEbpfUnload (progIdx : ℤ) : Svc Unit := do
  let md ← getMd
  match sideProg? progIdx with
  | none => raise ()
  | some idx => do
    let fd ← trnTransitMapGetFd .jmpTable
    if fd < 0 then raise () else do
      tryExcept (bpfMapDeleteElem k fd .jmpTable .deleteJmpTable) fun _ => some (pure ())
      bpfObjectClose (md.ebpfProgs idx).obj
      setProg (.side idx) fun prog => { prog with obj := none }
      closeFd (md.ebpfProgs idx).progFd (.prog idx)
      setProg (.side idx) fun prog => { prog with progFd := -1 }

/-! ## Map requests -/

/-- The descriptor of a map; without one functions return 1. -/
def getCtx (m : MapName) : Svc ℤ := do
  let fd ← trnTransitMapGetFd m
  if fd < 0 then raise () else pure fd

/-- `trn_update_endpoints_get_ctx`, then `trn_update_endpoint` for each endpoint of the batch -/
def updateEpSvc (batchLen : ℕ) : Svc Unit := do
  let fd ← getCtx .endpointsMap
  forEach (fun i => bpfMapUpdateElem k fd .endpointsMap (.updateEndpoint i)) (List.range batchLen)

/-- `trn_get_endpoint` -/
def getEpSvc : Svc Unit := do
  let fd ← getCtx .endpointsMap
  bpfMapLookupElem k fd .endpointsMap .lookupEndpoint

/-- `trn_delete_endpoint` -/
def deleteEpSvc : Svc Unit := do
  let fd ← getCtx .endpointsMap
  bpfMapLookupElem k fd .endpointsMap .lookupEndpoint
  bpfMapDeleteElem k fd .endpointsMap .deleteEndpoint

/-- `trn_get_itf_context`, then `trn_update_itf_config` -/
def updateDropletSvc (interface : List Char) : Svc Unit := do
  let s ← getState
  match trnGetItfContext (s.transitd k.ifNametoindex) interface with
  | none => raise ()
  | some _ => do
    let fd ← getCtx .ifConfigMap
    bpfMapUpdateElem k fd .ifConfigMap .updateIfConfig

end Load

/-! ## Requests -/

/-- The requests of the daemon. -/
inductive Rpc
  | loadTransitXdp (interfaces : Fin tranItfMapMax → List Char) (iboPort : U16)
  | unloadTransitXdp
  | loadTransitXdpEbpf (progIdx : ℤ)
  | unloadTransitXdpEbpf (progIdx : ℤ)
  | updateEp (batchLen : ℕ)
  | getEp
  | deleteEp
  | updateDroplet (interface : List Char)

/-- The function that a request calls. -/
def Rpc.svc (k : Libbpf) : Rpc → Svc Unit
  | .loadTransitXdp interfaces iboPort => trnTransitXdpLoad k interfaces iboPort
  | .unloadTransitXdp => trnTransitXdpUnload k
  | .loadTransitXdpEbpf progIdx => trnTransitEbpfLoad k progIdx
  | .unloadTransitXdpEbpf progIdx => trnTransitEbpfUnload k progIdx
  | .updateEp batchLen => updateEpSvc k batchLen
  | .getEp => getEpSvc k
  | .deleteEp => deleteEpSvc k
  | .updateDroplet interface => updateDropletSvc k interface

/-- A request, and how its calls come out. -/
abbrev RpcCall := Libbpf × Rpc

/-- The state after a request, whether it succeeds or not. -/
def RpcCall.run (c : RpcCall) (s : Daemon) : Daemon := (c.2.svc c.1 s).2

/-- A request as a step. -/
def rpcStep (c : RpcCall) (s : Daemon) : Option Daemon := some (c.run s)

/-- The state after a sequence of requests. -/
def runRpcs (cs : List RpcCall) (s : Daemon) : Daemon := cs.foldl (fun s c => c.run s) s

/-- A daemon that has not loaded anything. -/
structure Daemon.Starts (s : Daemon) : Prop where
  objects : ∀ o, s.table.objects o = none
  attached : ∀ i, s.attached i = none
  bpfmaps : ∀ m, s.bpfmaps m = ⟨-1, none⟩
  md : s.md = none
  uses : s.uses = []

theorem run_rpcStep (cs : List RpcCall) (s : Daemon) :
    Runs.run rpcStep cs s = some (runRpcs cs s) := by
  induction cs generalizing s with
  | nil => rfl
  | cons c cs ih => exact ih _

end ArionDp
