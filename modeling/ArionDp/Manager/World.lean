import ArionDp.Lib.ApiServer
import ArionDp.Lib.Py
import ArionDp.Manager.Endpoint

/-!
# The manager and what it writes to

The droplets in Kubernetes, the rows of the database, the variables of `settings.py` and of
`ports.py`, and the nodes' endpoint maps. Rows have the columns that some handler reads or writes.
-/

namespace ArionDp

open ApiServer

/-! ## Droplets -/

/-- `spec` of a droplet -/
structure DropletSpec where
  ip : List Text
  mac : List Text
  status : Text
  itf : Text
  network : Text
  zgcId : Text
  deriving DecidableEq

/-- A droplet: three labels and its `spec`. -/
structure Droplet where
  zgcId : Text
  nodeIp : Text
  network : Text
  spec : DropletSpec
  deriving DecidableEq

/-- A droplet as it is listed. -/
abbrev Item := Obj Text Droplet

/-- The droplets in Kubernetes. -/
abbrev Kube := Store Text Droplet

/-- `itf_conf` of `droplet_update_itf_config` -/
structure ItfConf where
  interface : Option Text
  numEntrances : ℕ
  entrances : List GwAddr
  deriving DecidableEq

/-! ## Rows -/

/-- `Node`, with its `Gw` rows -/
structure NodeRow where
  nodeId : Text
  zgcId : Text
  name : Text
  ipControl : Text
  infTenant : Text
  infZgc : Text
  gws : List GwAddr
  deriving DecidableEq

/-- `Zgc` -/
structure ZgcRow where
  zgcId : Text
  ipStart : Text
  ipEnd : Text
  deriving DecidableEq

/-- `Vpc` -/
structure VpcRow where
  zgcId : Text
  vpcId : Text
  vni : PyScalar
  deriving DecidableEq

/-- `Host` -/
structure HostRow where
  hostId : Text
  macNode : Text
  ipNode : Text
  deriving DecidableEq

/-- `Port` -/
structure PortRow where
  portId : Text
  macPort : Text
  vpcId : Text
  hostId : Text
  deriving DecidableEq

/-- `EP` -/
structure EpRow where
  ip : Text
  vip : Text
  portId : Text
  deriving DecidableEq

/-! ## Settings and state -/

/-- `activeZgc` -/
structure ActiveZgc where
  zgcId : Text
  ipStart : Text
  ipEnd : Text
  portIbo : PyScalar

/-- The order in which Kubernetes lists objects. -/
structure ListOrder where
  run : List Item → List Item
  perm : ∀ l, (run l).Perm l

/-- What does not change while the manager runs: `MAC_PRIVATE`, `zgc_cidr_range`, `str.lower`, the
order of listings, the numbers that `cJSON` reads, the droplets whose replacement or creation
Kubernetes refuses, and the keys that the base class of the models takes. -/
structure Env where
  macPrivate : ℤ
  zgcCidrRange : Text
  lower : Text → Text
  order : ListOrder
  num : JsonNumber
  kubeFails : Text → Bool
  modelAttr : Text → Bool

/-- The settings by default, where Kubernetes refuses nothing. -/
def Env.default : Env where
  macPrivate := MacPrivate.default.val
  zgcCidrRange := "10.0.0.0/16".toList
  lower := fun t => t.map Char.toLower
  order := ⟨id, List.Perm.refl⟩
  num := .cast
  kubeFails := fun _ => false
  modelAttr := fun _ => false

/-- `node_ips`: its keys, in the order in which they were added -/
structure NodeIps where
  ips : List Text
  nodup : ips.Nodup

namespace NodeIps

/-- `node_ips = {}` -/
def empty : NodeIps := ⟨[], List.nodup_nil⟩

/-- `node_ips[ip] = ip` -/
def insert (s : NodeIps) (ip : Text) : NodeIps :=
  if h : ip ∈ s.ips then s else ⟨s.ips.concat ip, s.nodup.concat h⟩

/-- `node_ips.pop(ip, None)` -/
def pop (s : NodeIps) (ip : Text) : NodeIps := ⟨s.ips.erase ip, s.nodup.erase ip⟩

theorem mem_insert {s : NodeIps} {ip n : Text} : n ∈ (s.insert ip).ips ↔ n = ip ∨ n ∈ s.ips := by
  unfold insert
  split_ifs with h
  · exact ⟨.inr, fun hn => hn.elim (fun he => he ▸ h) id⟩
  · change n ∈ s.ips.concat ip ↔ _
    rw [List.concat_eq_append, List.mem_append, List.mem_singleton, or_comm]

end NodeIps

/-- **The state of the system.** -/
structure World where
  kube : Kube
  nodes : List NodeRow
  zgcs : List ZgcRow
  vpcs : List VpcRow
  hosts : List HostRow
  ports : List PortRow
  epRows : List EpRow
  activeZgc : Option ActiveZgc
  nodeIps : NodeIps
  vnis : Text → Option PyScalar
  /-- `eps` of `ports.py` -/
  eps : List EpRpc
  /-- `endpoints_map` of each node, if the program is loaded -/
  maps : Text → Option EndpointsMap
  /-- the configurations sent with `update-droplet` -/
  itfConfs : List (Text × ItfConf)

/-- A manager with nothing but an active ZGC. -/
def World.start (z : ZgcRow) (portIbo : PyScalar) : World where
  kube := .empty
  nodes := []
  zgcs := [z]
  vpcs := []
  hosts := []
  ports := []
  epRows := []
  activeZgc := some ⟨z.zgcId, z.ipStart, z.ipEnd, portIbo⟩
  nodeIps := .empty
  vnis := fun _ => none
  eps := []
  maps := fun _ => none
  itfConfs := []

/-- A request handler. -/
abbrev Req := Py.Prog PyError World

end ArionDp
