import ArionDp.Lib.Runs
import ArionDp.Manager.Nodes

/-!
# Requests for networks and ports

The handlers of `vpcs.py` and `ports.py` that write. What they append to the module's list `eps`
stays there when they raise an exception.

* `VniValue`, `IntegerColumn`: the VNIs of requests, and what the database's column makes of them;
* `allVpcsPost`: a network is added;
* `portsUpdateEpsConfigOn`, `allPortsPostOn`: ports are added, and their endpoints sent to the nodes, on a
  state that holds the manager's;
* `PortFaults`, `portsUpdateEpsConfig`, `allPortsPost`: what can stop this, and the handlers on the state of
  the manager;
* `singlePortPut`, `singlePortDelete`: the row of a port is changed or removed;
* `Request`, `requestStep`: the requests for networks, ports and new nodes as a system of steps.
-/

namespace ArionDp

open PyText Py

/-- `EP_BATCH_MAX` -/
abbrev epBatchMax : ℕ := 360

/-! ## Networks -/

/-- A VNI of a request: an integer or a text, or a number with a fraction or an exponent. The database
refuses all other values. -/
inductive VniValue
  | scalar (v : PyScalar)
  | float (x : ℚ)
  deriving DecidableEq

/-- The value in `vnis`, where `int` is all that is done with it. -/
def VniValue.cached : VniValue → PyScalar
  | .scalar v => v
  | .float x => .int (x.num.tdiv x.den)

/-- **A column of integers**, and the values that it takes. It reads texts like Python does, if both can
read them, and rounds other numbers in its own way. -/
structure IntegerColumn where
  stored : VniValue → Option ℤ
  int : ∀ n m, stored (.scalar (.int n)) = some m → n = m
  str : ∀ s n m, stored (.scalar (.str s)) = some m → ArionDp.int 10 s = .ok n → n = m

/-- The fields of a new network. -/
structure NewVpc where
  vpcId : Text
  vni : VniValue
  deriving DecidableEq

/-- A commit, unless the database refuses it. -/
def dbCommit (refused : Bool) (c : Req Unit) : Req Unit := if refused then raise .integrityError else c

section Handlers

variable (env : Env) (col : IntegerColumn)

/-- What `extendVpcResp` can fail at. -/
def extendVpcResp : Req Unit := do
  let w ← getState
  match w.activeZgc with
  | none => raise .keyError
  | some z => do
    let _ ← ofExcept (getGWsFromIpRange env.macPrivate z.ipStart z.ipEnd)

/-- Add a row; ids of networks are unique. -/
def dbAddVpc (row : VpcRow) : Req Unit := do
  let w ← getState
  if ∃ r ∈ w.vpcs, r.vpcId = row.vpcId then raise .integrityError
  else modifyState fun w => { w with vpcs := w.vpcs ++ [row] }

/-- `all_vpcs`, a POST -/
def allVpcsPost (refused : Bool) (b : NewVpc) : Req Unit := do
  let w ← getState
  match w.activeZgc with
  | none => raise .keyError
  | some z => match col.stored b.vni with
    | none => raise .integrityError
    | some n => do
      dbCommit refused (dbAddVpc ⟨z.zgcId, b.vpcId, .int n⟩)
      modifyState fun w =>
        { w with vnis := fun v => if v = b.vpcId then some b.vni.cached else w.vnis v }
      extendVpcResp env

/-! ## Endpoints of the nodes -/

/-- `rpc.update_ep` for a node; the outcome of the command is only logged -/
def sendEps (chunk : List EpRpc) (ip : Text) : Req Unit :=
  modifyState fun w =>
    { w with maps := fun n => if n = ip then trnRpcUpdateEp env.num chunk (w.maps n) else w.maps n }

/-- `ports_update_eps_config`, where `updateEp` sends a chunk to a node -/
def portsUpdateEpsConfigOn {σ : Type} (on : ∀ {α : Type}, Req α → Py.Prog PyError σ α)
    (updateEp : List EpRpc → Text → Py.Prog PyError σ Unit) : Py.Prog PyError σ Unit := do
  let w ← on getState
  forEach (fun chunk => forEach (updateEp chunk) w.nodeIps.ips) (pyChunks epBatchMax w.eps)
  on (modifyState fun w => { w with eps := [] })

/-- `ports_update_eps_config` on the state of the manager -/
def portsUpdateEpsConfig : Req Unit := portsUpdateEpsConfigOn id (sendEps env)

/-! ## New ports -/

/-- An item of `ips_port` -/
structure PortIp where
  ip : Text
  vip : Text
  deriving DecidableEq

/-- The fields of a new port, and the id that `uuid4` gives to its host if that is new. -/
structure PortBody where
  portId : Text
  macPort : Text
  vpcId : Text
  ipNode : Text
  macNode : Text
  ipsPort : List PortIp
  hostId : Text
  deriving DecidableEq

/-- What the loop of `all_ports` collects: `hosts_to_add`, `host_ip_node_lookup_set`, `ports_to_add` and
`eps_to_add_to_db`. -/
structure PortRows where
  hosts : List HostRow
  lookup : Finset Text
  ports : List PortRow
  epRows : List EpRow

/-- Nothing is collected yet. -/
def PortRows.empty : PortRows := ⟨[], ∅, [], []⟩

/-- The loop over `hosts_to_add`: the id of the first host with the IP; else `host_id` stays empty. -/
def pendingHostId (hostsToAdd : List HostRow) (ipNode : Text) : Text :=
  match hostsToAdd.find? fun h => h.ipNode = ipNode with
  | some host => host.hostId
  | none => []

/-- The host of a port: its id, the hosts to be added, and the lookup set. -/
def findHost (hosts hostsToAdd : List HostRow) (lookup : Finset Text) (b : PortBody) :
    Text × List HostRow × Finset Text :=
  match hosts.find? fun h => h.ipNode = b.ipNode with
  | none =>
    if b.ipNode ∉ lookup then
      (b.hostId, hostsToAdd ++ [⟨b.hostId, b.macNode, b.ipNode⟩], insert b.ipNode lookup)
    else (pendingHostId hostsToAdd b.ipNode, hostsToAdd, lookup)
  | some host => (host.hostId, hostsToAdd, lookup)

/-- The rows of `EP` that a port needs. -/
def PortBody.epRows (b : PortBody) : List EpRow := b.ipsPort.map fun ip => ⟨ip.ip, ip.vip, b.portId⟩

/-- The entry of a port, with the first of its addresses. -/
def PortBody.epRpc (vnis : Text → Option PyScalar) (b : PortBody) : Except PyError EpRpc :=
  match b.ipsPort with
  | [] => PyScalar.toInt (vnis b.vpcId) >>= fun _ => .error .indexError
  | ip :: _ => ArionDp.epRpc (vnis b.vpcId) ip.ip b.ipNode b.macPort b.macNode

/-- What a round of the loop has collected for a port on a host. -/
def PortRows.collect (rows : PortRows) (b : PortBody) (host : Text × List HostRow × Finset Text) : PortRows :=
  ⟨host.2.1, host.2.2, rows.ports ++ [⟨b.portId, b.macPort, b.vpcId, host.1⟩], rows.epRows ++ b.epRows⟩

/-- One round of the loop of `all_ports`. -/
def collectPort (rows : PortRows) (b : PortBody) : Req PortRows := do
  let w ← getState
  let host := findHost w.hosts rows.hosts rows.lookup b
  let e ← ofExcept (b.epRpc w.vnis)
  modifyState fun w => { w with eps := w.eps ++ [e] }
  pure (rows.collect b host)

/-- What can stop a request besides the values in it: the loop ends at a port, which lacks a field or whose
host the database does not find out, or one of the three commits is refused. -/
structure PortFaults where
  loop : Option ℕ
  hosts : Bool
  ports : Bool
  epRows : Bool
  deriving DecidableEq

/-- Nothing goes wrong. -/
def PortFaults.none : PortFaults := ⟨.none, false, false, false⟩

/-- The ports that the loop gets through, if their values let it. -/
def PortFaults.reached (F : PortFaults) (portList : List PortBody) : List PortBody :=
  match F.loop with
  | .none => portList
  | .some k => portList.take k

/-- The loop of `all_ports` -/
def collectPorts (F : PortFaults) (portList : List PortBody) : Req PortRows := do
  let rows ← (F.reached portList).foldlM collectPort .empty
  if (F.reached portList).length < portList.length then raise .keyError else pure rows

/-- Add rows; ids of hosts are unique. -/
def dbInsertHosts (rows : List HostRow) : Req Unit := do
  let w ← getState
  if ((w.hosts ++ rows).map fun r => r.hostId).Nodup then
    modifyState fun w => { w with hosts := w.hosts ++ rows }
  else raise .integrityError

/-- Add rows; ids of ports are unique. -/
def dbInsertPorts (rows : List PortRow) : Req Unit := do
  let w ← getState
  if ((w.ports ++ rows).map fun r => r.portId).Nodup then
    modifyState fun w => { w with ports := w.ports ++ rows }
  else raise .integrityError

/-- `all_ports`, a POST, where `push` is `ports_update_eps_config` -/
def allPortsPostOn {σ : Type} (on : ∀ {α : Type}, Req α → Py.Prog PyError σ α) (push : Py.Prog PyError σ Unit)
    (F : PortFaults) (portList : List PortBody) : Py.Prog PyError σ Unit := do
  let rows ← on (collectPorts F portList)
  on (dbCommit F.hosts (dbInsertHosts rows.hosts))
  on (dbCommit F.ports (dbInsertPorts rows.ports))
  on (dbCommit F.epRows (modifyState fun w => { w with epRows := w.epRows ++ rows.epRows }))
  push

/-- `all_ports`, a POST, on the state of the manager -/
def allPortsPost (F : PortFaults) (portList : List PortBody) : Req Unit :=
  allPortsPostOn id (portsUpdateEpsConfig env) F portList

/-! ## Single ports -/

/-- `single_port`, a PUT -/
def singlePortPut (portId macPort : Text) : Req Unit := do
  let w ← getState
  if ∃ r ∈ w.ports, r.portId = portId then
    modifyState fun w => { w with
      ports := w.ports.map fun r => if r.portId = portId then { r with macPort := macPort } else r }
  else raise .attributeError

/-- `single_port`, a DELETE -/
def singlePortDelete (portId : Text) : Req Unit := do
  let w ← getState
  if ∃ r ∈ w.ports, r.portId = portId then do
    modifyState fun w => { w with epRows := w.epRows.filter fun e => e.portId ≠ portId }
    modifyState fun w => { w with ports := w.ports.filter fun r => r.portId ≠ portId }
  else raise .attributeError

/-! ## Steps -/

/-- A request for a network, for ports or for a new node, whose commits the database does not refuse. -/
inductive Request
  | postVpc (b : NewVpc)
  | postPorts (portList : List PortBody)
  | putPort (portId macPort : Text)
  | deletePort (portId : Text)
  | postNode (nodeId : Text) (d : NodePost)
  deriving DecidableEq

/-- The state after a request, whether it returns or raises. -/
def Request.run : Request → World → World
  | .postVpc b, w => (allVpcsPost env col false b w).2
  | .postPorts portList, w => (allPortsPost env .none portList w).2
  | .putPort portId macPort, w => (singlePortPut portId macPort w).2
  | .deletePort portId, w => (singlePortDelete portId w).2
  | .postNode nodeId d, w => (allNodesPost env nodeId d w).2

/-- **Requests as steps**, each of which is always possible. -/
def requestStep (r : Request) (w : World) : Option World := some (r.run env col w)

theorem run_requestStep (rs : List Request) (w : World) :
    Runs.run (requestStep env col) rs w = some (rs.foldl (fun w r => r.run env col w) w) := by
  induction rs generalizing w with
  | nil => rfl
  | cons r rs ih => exact ih (r.run env col w)

end Handlers

end ArionDp
