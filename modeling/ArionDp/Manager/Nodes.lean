import ArionDp.Manager.Redistribute

/-!
# Node requests

The handlers of `nodes.py` and what they call. A handler keeps its effects when it raises an
exception, as the requests of the manager do: nothing is rolled back in Kubernetes.

* `NodePost`, `ArionNode`, `NodeBody`: the requests for a new node, whatever their keys, the nodes from Hazelcast,
  and the complete ones;
* `allNodesPost`, `setUpNodeFromHazelcast`: a node is added, and gets a droplet;
* `singleNodeDelete`: a node is removed, and its droplet's addresses go to the others;
* `NodeOp`, `runNodeOps`: sequences of requests.
-/

namespace ArionDp

open ApiServer PyText Py

/-! ## Droplets in Kubernetes -/

/-- The pairs `(ips[i], macs[i])` for the indices of `ips`. -/
def zipAddrs : List Text → List Text → Except PyError (List GwAddr)
  | [], _ => .ok []
  | _ :: _, [] => .error .indexError
  | ip :: ips, mac :: macs => do
    let rest ← zipAddrs ips macs
    pure (⟨ip, mac⟩ :: rest)

/-- `droplet_update_itf_config`; the outcome of the command on the node is only logged -/
def dropletUpdateItfConfig (nodeIp : Text) (spec : DropletSpec) : Req Unit := do
  let entrances ← ofExcept (zipAddrs spec.ip spec.mac)
  let itf := if spec.ip = [] then none else some spec.itf
  modifyState fun w =>
    { w with itfConfs := w.itfConfs ++ [(nodeIp, ⟨itf, spec.ip.length, entrances⟩)] }

/-- `try: … except ApiException`, with a message in the log -/
def logApiException (c : Req Unit) : Req Unit :=
  tryExcept c fun e => if e = .apiException then some (pure ()) else none

/-- The droplets that the label selector of the handlers picks. -/
def selectsTenant (zgcId : Text) (d : Droplet) : Bool := d.zgcId = zgcId ∧ d.network = "tenant".toList

section Handlers

variable (env : Env)

/-- `list_cluster_custom_object(…)['items']` -/
def listDroplets (zgcId : Text) : Req (List Item) := do
  let w ← getState
  pure (env.order.run (w.kube.select (selectsTenant zgcId)))

/-- A write to Kubernetes that it may refuse. -/
def kubeWrite (name : Text) (write : Kube → Option Kube) : Req Unit := do
  let w ← getState
  if env.kubeFails name then raise .apiException
  else match write w.kube with
    | some kube => modifyState fun w => { w with kube := kube }
    | none => raise .apiException

/-- `update_droplet` -/
def updateDroplet (droplet : Item) : Req Unit := logApiException do
  kubeWrite env droplet.name fun kube =>
    kube.replace droplet.name droplet.resourceVersion droplet.body
  dropletUpdateItfConfig droplet.body.nodeIp droplet.body.spec

/-- `delete_droplet` -/
def deleteDroplet (name : Text) : Req Unit := logApiException do
  kubeWrite env name fun kube => kube.delete name

/-- `droplet_body` -/
def dropletBody (ip mac : List Text) (itf nodeIp network zgcId : Text) : Droplet :=
  ⟨zgcId, nodeIp, network, ⟨ip, mac, "Init".toList, itf, network, zgcId⟩⟩

/-- `create_droplet` -/
def createDroplet (name : Text) (ip mac : List Text) (itf nodeIp network zgcId : Text) : Req Unit :=
  let body := dropletBody ip mac itf nodeIp network zgcId
  logApiException do
    kubeWrite env name fun kube => kube.create name body
    dropletUpdateItfConfig nodeIp body.spec

/-- `name.replace('_', '-').lower()` -/
def normalName (name : Text) : Text := env.lower (name.map fun c => if c = '_' then '-' else c)

/-- The name of a node's tenant droplet. -/
def tenantName (name : Text) : Text := "droplet-tenant-".toList ++ normalName env name

/-- The name of a droplet that no handler creates. -/
def zgcName (name : Text) : Text := "droplet-zgc-".toList ++ normalName env name

/-! ## Nodes -/

/-- The program of a node after `load-transit-xdp`: loaded once, with empty maps. -/
def loadTransitXdp (m : Option EndpointsMap) : Option EndpointsMap := some (m.getD fun _ => none)

/-- `node_load_transit_xdp` -/
def nodeLoadTransitXdp (ip : Text) : Req Unit := do
  modifyState fun w => { w with nodeIps := w.nodeIps.insert ip }
  let w ← getState
  match w.activeZgc with
  | none => raise .keyError
  | some z => do
    let _ ← ofExcept (PyScalar.toInt (some z.portIbo))
    modifyState fun w =>
      { w with maps := fun n => if n = ip then loadTransitXdp (w.maps n) else w.maps n }

/-- `node_unload_transit_xdp`, which calls a method of two arguments with three -/
def nodeUnloadTransitXdp (ip : Text) : Req Unit := do
  modifyState fun w => { w with nodeIps := w.nodeIps.pop ip }
  raise .typeError

/-- Write the `Gw` rows of a node. -/
def setGws (nodeId : Text) (gws : List GwAddr) : Req Unit :=
  modifyState fun w =>
    { w with nodes := w.nodes.map fun r => if r.nodeId = nodeId then { r with gws := gws } else r }

/-- `update_existing_nodes_gw_ips_macs`, which reads the row before it asks whether there is one -/
def updateExistingNodesGwIpsMacs (nodeIp : Text) (ips macs : List Text) : Req Unit := do
  let w ← getState
  match w.nodes.find? fun r => r.ipControl = nodeIp with
  | none => raise .attributeError
  | some r => do
    setGws r.nodeId []
    let gws ← ofExcept (zipAddrs ips macs)
    setGws r.nodeId gws

/-- Add a row; ids and names of nodes are unique. -/
def dbAddNode (row : NodeRow) : Req Unit := do
  let w ← getState
  if ∃ r ∈ w.nodes, r.nodeId = row.nodeId ∨ r.name = row.name then raise .integrityError
  else modifyState fun w => { w with nodes := w.nodes ++ [row] }

/-! ## Adding a node -/

/-- The key `gws` of a request: there is none, or a list, or something else. -/
inductive GwsKey
  | missing
  | list (length : ℕ)
  | other
  deriving DecidableEq

/-- **The JSON object of a request for a new node**: the texts under the keys that the handler reads, if they
are there, and the names of the other keys; and what it raises to read a name that is not there. -/
structure NodePost where
  zgcId : Option Text
  name : Option Text
  ipControl : Option Text
  infTenant : Option Text
  infZgc : Option Text
  gws : GwsKey
  others : List Text
  noName : PyError
  deriving DecidableEq

/-- The columns that a request has to have besides. -/
def nodeColumns : List Text :=
  ["id_control".toList, "pwd_control".toList, "mac_tenant".toList, "mac_zgc".toList]

/-- The fields of a new node. -/
structure NodeBody where
  zgcId : Text
  name : Text
  ipControl : Text
  infTenant : Text
  infZgc : Text
  deriving DecidableEq

/-- The complete request with these fields. -/
def NodeBody.post (b : NodeBody) : NodePost :=
  ⟨some b.zgcId, some b.name, some b.ipControl, some b.infTenant, some b.infZgc, .missing, nodeColumns, .keyError⟩

instance : Coe NodeBody NodePost := ⟨NodeBody.post⟩

/-- `ArionNode`, where the name can be null; the other strings are taken to be there -/
structure ArionNode where
  name : Option Text
  ipControl : Text
  infTenant : Text
  infZgc : Text
  deriving DecidableEq

/-- The columns of a node from Hazelcast, which are all filled in. -/
def ArionNode.post (n : ArionNode) (zgcId : Text) : NodePost :=
  ⟨some zgcId, n.name, some n.ipControl, some n.infTenant, some n.infZgc, .missing, nodeColumns, .attributeError⟩

/-- The node from Hazelcast with these fields. -/
def NodeBody.arionNode (b : NodeBody) : ArionNode := ⟨some b.name, b.ipControl, b.infTenant, b.infZgc⟩

instance : Coe NodeBody ArionNode := ⟨NodeBody.arionNode⟩

/-- A key is read. -/
def readKey (v : Option Text) : Req Text :=
  match v with
  | some t => pure t
  | none => raise .keyError

/-- The name is read. -/
def readName (d : NodePost) : Req Text :=
  match d.name with
  | some t => pure t
  | none => raise d.noName

/-- `post_data['mac_zgc']`, which nothing is done with -/
def readMacZgc (d : NodePost) : Req Unit :=
  if "mac_zgc".toList ∈ d.others then pure () else raise .keyError

/-- `post_data['gws'].append(…)` for each gateway -/
def appendGws (d : NodePost) (gws : List GwAddr) : Req Unit :=
  if d.gws = .other ∧ gws ≠ [] then raise .attributeError else pure ()

/-- A key that `Node` takes. -/
def isNodeAttr (key : Text) : Bool :=
  key ∈ nodeColumns ∨ key ∈ ["id".toList, "node_id".toList, "description".toList, "to_json".toList] ∨
    env.modelAttr key

/-- The row of a request, if no column is missing. -/
def NodePost.row (d : NodePost) (zgcId nodeId : Text) (gws : List GwAddr) : Option NodeRow :=
  if ∀ c ∈ nodeColumns, c ∈ d.others then do
    pure ⟨nodeId, zgcId, ← d.name, ← d.ipControl, ← d.infTenant, ← d.infZgc, gws⟩
  else none

/-- `Node(**post_data)`, and the columns that the commit asks for -/
def newNode (d : NodePost) (zgcId nodeId : Text) (gws : List GwAddr) : Req NodeRow :=
  if ∃ key ∈ d.others, isNodeAttr env key = false then raise .typeError
  else match d.gws, d.row zgcId nodeId gws with
    | .other, _ => raise .typeError
    | .list (_ + 1), _ => raise .attributeError
    | _, some row => pure row
    | _, none => raise .integrityError

/-- `zgc_ip`: the address with the octets of `zgc_cidr_range` in front; only whether it can be built
matters -/
def zgcIp (ipControl : Text) : Except PyError Text :=
  let ipRange := pySplit '/' env.zgcCidrRange
  let cidrList := pySplit '.' (ipRange.headD [])
  match ipRange[1]? with
  | none => .error .indexError
  | some plen => do
    let n ← int 10 plen
    let zgcIpList ← (List.range (n / 8).toNat).foldlM
      (fun (l : List Text) i => match cidrList[i]? with
        | some c => if i < l.length then .ok (l.set i c) else .error .indexError
        | none => .error .indexError) (pySplit '.' ipControl)
    pure (pyJoin '.' zgcIpList)

/-- One round of the loop over `modified_droplets`. -/
def updateNodeAndDroplet (d : Item) : Req Unit := do
  updateExistingNodesGwIpsMacs d.body.nodeIp d.body.spec.ip d.body.spec.mac
  updateDroplet env d

/-- The droplet of a new node: taken from the others, or all of the range for the first one. The
result is the new node's gateways, `none` without a ZGC. -/
def newNodeGws (zgcId : Text) (d : NodePost) : Req (Option (List GwAddr)) := do
  let all ← listDroplets env zgcId
  let ipControl ← readKey d.ipControl
  let _ ← ofExcept (zgcIp env ipControl)
  readMacZgc d
  if all.length > 0 then
    match ← ofExcept (planAddition (getMacFromIp env.macPrivate) all) with
    | some p => do
      forEach (updateNodeAndDroplet env) p.modified
      let name ← readName d
      let infTenant ← readKey d.infTenant
      createDroplet env (tenantName env name) p.ips p.macs infTenant ipControl "tenant".toList zgcId
      let gws ← ofExcept (zipAddrs p.ips p.macs)
      appendGws d gws
      pure (some gws)
    | none => pure (some [])
  else do
    let w ← getState
    match w.zgcs.find? fun r => r.zgcId = zgcId with
    | some zgc => do
      let gws ← ofExcept (getGWsFromIpRange env.macPrivate zgc.ipStart zgc.ipEnd)
      appendGws d gws
      let name ← readName d
      let infTenant ← readKey d.infTenant
      createDroplet env (tenantName env name) (gws.map fun gw => gw.ip) (gws.map fun gw => gw.mac)
        infTenant ipControl "tenant".toList zgcId
      pure (some gws)
    | none => pure none

/-- The replies of the node requests. -/
inductive NodeReply
  | created
  | deleted
  | error (msg : String)
  deriving DecidableEq

/-- What both additions do after loading the program. -/
def addNode (zgcId nodeId : Text) (d : NodePost) : Req NodeReply := do
  match ← newNodeGws env zgcId d with
  | some gws => do
    let row ← newNode env d zgcId nodeId gws
    dbAddNode row
    pure .created
  | none => pure (.error "No such zgc")

/-- `all_nodes`, a POST -/
def allNodesPost (nodeId : Text) (d : NodePost) : Req NodeReply := do
  let ipControl ← readKey d.ipControl
  let _ ← readKey d.infTenant
  let _ ← readKey d.infZgc
  nodeLoadTransitXdp ipControl
  let zgcId ← readKey d.zgcId
  addNode env zgcId nodeId d

/-- `set_up_node_from_hazelcast`, for the active ZGC -/
def setUpNodeFromHazelcast (nodeId : Text) (n : ArionNode) : Req NodeReply := do
  let w ← getState
  match w.activeZgc with
  | none => raise .keyError
  | some z => do
    nodeLoadTransitXdp n.ipControl
    addNode env z.zgcId nodeId (n.post z.zgcId)

/-! ## Complete requests -/

section Complete

variable (zgcId nodeId : Text) (b : NodeBody)

/-- Nothing is missing in a complete request. -/
theorem newNodeGws_post : newNodeGws env zgcId b = (do
    let all ← listDroplets env zgcId
    let _ ← ofExcept (zgcIp env b.ipControl)
    if all.length > 0 then
      match ← ofExcept (planAddition (getMacFromIp env.macPrivate) all) with
      | some p => do
        forEach (updateNodeAndDroplet env) p.modified
        createDroplet env (tenantName env b.name) p.ips p.macs b.infTenant b.ipControl
          "tenant".toList zgcId
        let gws ← ofExcept (zipAddrs p.ips p.macs)
        pure (some gws)
      | none => pure (some [])
    else do
      let w ← getState
      match w.zgcs.find? fun r => r.zgcId = zgcId with
      | some zgc => do
        let gws ← ofExcept (getGWsFromIpRange env.macPrivate zgc.ipStart zgc.ipEnd)
        createDroplet env (tenantName env b.name) (gws.map fun gw => gw.ip) (gws.map fun gw => gw.mac)
          b.infTenant b.ipControl "tenant".toList zgcId
        pure (some gws)
      | none => pure none) := by
  rfl

theorem addNode_post : addNode env zgcId nodeId b = (do
    match ← newNodeGws env zgcId b with
    | some gws => do
      dbAddNode ⟨nodeId, zgcId, b.name, b.ipControl, b.infTenant, b.infZgc, gws⟩
      pure .created
    | none => pure (.error "No such zgc")) := by
  rfl

theorem allNodesPost_post : allNodesPost env nodeId b = (do
    nodeLoadTransitXdp b.ipControl
    addNode env b.zgcId nodeId b) := rfl

theorem setUpNodeFromHazelcast_post : setUpNodeFromHazelcast env nodeId b = (do
    let w ← getState
    match w.activeZgc with
    | none => raise .keyError
    | some z => do
      nodeLoadTransitXdp b.ipControl
      addNode env z.zgcId nodeId b) := rfl

end Complete

/-! ## Removing a node -/

/-- `single_node`, a DELETE -/
def singleNodeDelete (nodeId : Text) : Req NodeReply := do
  let w ← getState
  match w.nodes.find? fun r => r.nodeId = nodeId with
  | none => raise .attributeError
  | some node => do
    let all ← listDroplets env node.zgcId
    match all.find? fun d => d.name = tenantName env node.name with
    | none => pure (.error "Droplet not found")
    | some d => do
      let modified ← ofExcept
        (planRemoval (getMacFromIp env.macPrivate) d.body.spec.ip (all.erase d))
      deleteDroplet env (tenantName env node.name)
      deleteDroplet env (zgcName env node.name)
      forEach (updateDroplet env) modified
      nodeUnloadTransitXdp node.ipControl
      modifyState fun w => { w with nodes := w.nodes.filter fun r => r.nodeId ≠ nodeId }
      pure .deleted

/-! ## Sequences of requests -/

/-- A request that adds or removes a node, with the id that `uuid4` gives to a new one. -/
inductive NodeOp
  | post (nodeId : Text) (b : NodeBody)
  | hazelcast (nodeId : Text) (b : NodeBody)
  | delete (nodeId : Text)
  deriving DecidableEq

/-- The state after a request, whether it returns or raises. -/
def NodeOp.run : NodeOp → World → World
  | .post nodeId b, w => (allNodesPost env nodeId b w).2
  | .hazelcast nodeId b, w => (setUpNodeFromHazelcast env nodeId b w).2
  | .delete nodeId, w => (singleNodeDelete env nodeId w).2

/-- The state after a sequence of requests. -/
def runNodeOps (ops : List NodeOp) (w : World) : World := ops.foldl (fun w op => op.run env w) w

end Handlers

/-- The id and the name that a request adds. -/
def NodeOp.adds : NodeOp → List (Text × Text)
  | .post nodeId b => [(nodeId, b.name)]
  | .hazelcast nodeId b => [(nodeId, b.name)]
  | .delete _ => []

end ArionDp
