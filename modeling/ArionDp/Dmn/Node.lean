import ArionDp.Cli.Xdp
import ArionDp.Dmn.EndpointStore
import ArionDp.Dmn.Interfaces
import ArionDp.Dmn.Ownership

/-!
# Nodes

A node is a daemon together with what is in the two maps that its requests fill. A load makes these maps, and they are
there as long as the daemon has descriptors of them.

* `Node`, with the requests about endpoints and droplets;
* `Loader`, `Loader.ofDaemon`: the requests about programs, as any daemon and as this one serves them;
* **`loadTransitXdp_loaded`**: a load is ignored where the program is loaded;
* **`loadTransitXdp_fresh`**: a first load that succeeds makes empty maps, for the interfaces that it is about.
-/

namespace ArionDp

open Py Descriptors Wire

/-- A node: its daemon, its interfaces, the maps of the daemon, and what is on the stack of `update_droplet_1_svc`. -/
structure Node where
  daemon : Daemon
  ifNametoindex : List Char → U32
  eps : Option EndpointStore
  itfs : Option IfConfigMap
  stack : Fin tranMaxZgcEntrances → ZgcEntrance

namespace Node

/-- The interfaces that the daemon knows. -/
def transitd (x : Node) : Transitd := x.daemon.transitd x.ifNametoindex

/-- `update_droplet_1` on a node -/
def updateDroplet (droplet : RpcDroplet) (x : Node) : Bool × Node :=
  let r := updateDroplet1Svc x.transitd x.stack x.itfs droplet
  (r.1 == 0, { x with itfs := r.2 })

/-- `update_ep_1` on a node -/
def updateEp (batch : List TrnEp) (x : Node) : Bool × Node :=
  let r := EndpointStore.updateEp1Svc x.eps batch
  (r.1 == 0, { x with eps := r.2 })

/-- `get_ep_1` on a node -/
def getEp (epkey : EndpointKey) (x : Node) : Bool × Node := ((EndpointStore.getEp1Svc x.eps epkey).isSome, x)

/-- `delete_ep_1` on a node -/
def deleteEp (epkey : EndpointKey) (x : Node) : Bool × Node :=
  let r := EndpointStore.deleteEp1Svc x.eps epkey
  (r.1 == 0, { x with eps := r.2 })

end Node

/-! ## Requests about programs -/

/-- What a daemon does on the requests about programs: whether it succeeds, and the node after that. -/
structure Loader where
  loadTransitXdp : RpcXdpIntf → Node → Bool × Node
  unloadTransitXdp : RpcXdpIntf → Node → Bool × Node
  loadTransitXdpEbpf : RpcEbpfProg → Node → Bool × Node
  unloadTransitXdpEbpf : RpcEbpfProg → Node → Bool × Node

/-- The daemon has a descriptor of a map. -/
def Daemon.Opens (s : Daemon) (m : MapName) : Prop := (s.table.pass (s.bpfmaps m).fd (.map m)).Right

instance (s : Daemon) (m : MapName) : Decidable (s.Opens m) := inferInstanceAs (Decidable (Use.Right _))

/-- How the calls of libbpf come out on each node, for each request. -/
abbrev Outcomes := Rpc → Node → Libbpf

namespace Node

variable (k : Outcomes)

/-- The calls of a request on a node. -/
def libbpf (r : Rpc) (x : Node) : Libbpf := { k r x with ifNametoindex := x.ifNametoindex }

/-- A request about programs: whether it succeeds, and the daemon after that. -/
def serve (r : Rpc) (x : Node) : Bool × Daemon :=
  let t := r.svc (x.libbpf k r) x.daemon
  (t.1.isOk, t.2)

/-- The node with the maps that its daemon still has. -/
def keepMaps (x : Node) (s : Daemon) : Node :=
  { x with
    daemon := s
    eps := if s.Opens .endpointsMap then x.eps else none
    itfs := if s.Opens .ifConfigMap then x.itfs else none }

/-- The node with the maps that its daemon has made. -/
def newMaps (x : Node) (s : Daemon) : Node :=
  { x with
    daemon := s
    eps := if s.Opens .endpointsMap then some .empty else none
    itfs := if s.Opens .ifConfigMap then some .new else none }

/-- The load of two interfaces. -/
def loadRequest (intf : RpcXdpIntf) : Rpc := .loadTransitXdp ![intf.itfTenant, intf.itfZgc] intf.iboPort

/-- `load_transit_xdp_1` on a node -/
def loadTransitXdp (intf : RpcXdpIntf) (x : Node) : Bool × Node :=
  let t := x.serve k (loadRequest intf)
  -- both returns come before `trn_transit_map_hash`, which forgets the maps
  if x.daemon.md.isSome ∨ (k (loadRequest intf) x).fails .setrlimit then (t.1, { x with daemon := t.2 })
  else (t.1, x.newMaps t.2)

/-- A request that makes no maps. -/
def serveKeeping (r : Rpc) (x : Node) : Bool × Node := ((x.serve k r).1, x.keepMaps (x.serve k r).2)

end Node

/-- The daemon of the node itself. -/
def Loader.ofDaemon (k : Outcomes) : Loader where
  loadTransitXdp := Node.loadTransitXdp k
  unloadTransitXdp _ := Node.serveKeeping k .unloadTransitXdp
  loadTransitXdpEbpf prog := Node.serveKeeping k (.loadTransitXdpEbpf prog.progIdx.toInt)
  unloadTransitXdpEbpf prog := Node.serveKeeping k (.unloadTransitXdpEbpf prog.progIdx.toInt)

section Load

variable {k : Outcomes} {intf : RpcXdpIntf} {x : Node}

theorem loadTransitXdp_fst : (x.loadTransitXdp k intf).1 = (x.serve k (Node.loadRequest intf)).1 := by
  rw [Node.loadTransitXdp]
  split_ifs <;> rfl

variable (k intf x) in
theorem loadTransitXdp_daemon : (x.loadTransitXdp k intf).2.daemon = (x.serve k (Node.loadRequest intf)).2 := by
  rw [Node.loadTransitXdp]
  split_ifs <;> rfl

/-- **A load is ignored** where the program is loaded. -/
theorem loadTransitXdp_loaded (h : x.daemon.md.isSome) : x.loadTransitXdp k intf = (true, x) := by
  obtain ⟨md, hmd⟩ := Option.isSome_iff_exists.1 h
  have hserve : x.serve k (Node.loadRequest intf) = (true, x.daemon) := by
    have hsvc : (Node.loadRequest intf).svc (x.libbpf k (Node.loadRequest intf)) x.daemon = (.ok (), x.daemon) :=
      trnTransitXdpLoad_again hmd
    rw [Node.serve, hsvc]
    rfl
  rw [Node.loadTransitXdp, hserve, if_pos (.inl h)]

/-- The daemon has the maps that it remembers descriptors of. -/
theorem Owned.opens {s : Daemon} (h : Owned s) (hmd : s.md.isSome) (hshared : Shared MapName.all s) {m : MapName}
    (hm : m.shared = true) : s.Opens m := by
  obtain ⟨md, hmd⟩ := Option.isSome_iff_exists.1 hmd
  exact h.right_map (hshared m (mem_all m) hm) (h.mapped md hmd m)

/-- A load fails where the limit of locked memory cannot be set. -/
theorem trnTransitXdpLoad_setrlimit {k : Libbpf} {interfaces : Fin tranItfMapMax → List Char} {iboPort : U16}
    (h : k.fails .setrlimit = true) : Triple (fun s => s.md = none) (trnTransitXdpLoad k interfaces iboPort)
      (fun _ _ => False) fun _ s => s.md = none := by
  refine Triple.bind Triple.getState fun s => Triple.assume (fun t ht => ht.1 ▸ ht.2) fun hmd => ?_
  rw [hmd]
  exact Triple.bind_raises ((callLibbpf_fails h).pre fun _ ht => ht.2)

/-- **A first load that succeeds makes empty maps**, and the daemon knows the two interfaces. -/
theorem loadTransitXdp_fresh (hmd : x.daemon.md = none) (howned : Owned x.daemon)
    (hok : (x.loadTransitXdp k intf).1 = true) : ∃ s, (x.loadTransitXdp k intf).2 =
      { x with daemon := s, eps := some .empty, itfs := some .new } ∧ Owned s ∧
        Known (x.libbpf k (Node.loadRequest intf)) ![intf.itfTenant, intf.itfZgc] intf.iboPort s := by
  have hsvc : (Node.loadRequest intf).svc (x.libbpf k (Node.loadRequest intf)) =
      trnTransitXdpLoad (x.libbpf k (Node.loadRequest intf)) ![intf.itfTenant, intf.itfZgc] intf.iboPort := rfl
  rw [loadTransitXdp_fst, Node.serve, hsvc] at hok
  obtain ⟨_, s, hrun, howned, hshared⟩ := (trnTransitXdpLoad_shared _ _).of_isOk ⟨hmd, howned⟩ hok
  obtain ⟨_, s', hrun', hknown⟩ := trnTransitXdpLoad_known.of_isOk hmd hok
  obtain rfl : s = s' := (Prod.mk.inj (hrun.symm.trans hrun')).2
  have hlimit : (k (Node.loadRequest intf) x).fails .setrlimit ≠ true := fun hfails => by
    have hraises : (x.libbpf k (Node.loadRequest intf)).fails .setrlimit = true := hfails
    obtain ⟨_, _, -, hfalse⟩ := (trnTransitXdpLoad_setrlimit hraises).of_isOk hmd hok
    exact hfalse
  have hopens (m : MapName) (hm : m.shared = true) : s.Opens m := howned.opens hknown.isSome hshared hm
  refine ⟨s, ?_, howned, hknown⟩
  rw [Node.loadTransitXdp, if_neg (not_or.2 ⟨by rw [hmd]; decide, hlimit⟩), Node.serve, hsvc, hrun, Node.newMaps,
    if_pos (hopens .endpointsMap rfl), if_pos (hopens .ifConfigMap rfl)]

end Load

/-! ## A sample node -/

/-- A node with two interfaces and no program. -/
def freshNode : Node where
  daemon := .start
  ifNametoindex name := if name = "eth0".toList then 2 else if name = "eth1".toList then 3 else 0
  eps := none
  itfs := none
  stack _ := ⟨0, 0, fun _ => 0⟩

/-- Its interfaces. -/
def freshIntf : RpcXdpIntf := ⟨"eth0".toList, "eth1".toList, 8300, 0⟩

/-- Its daemon after a load. -/
@[irreducible] def loadedDaemon : Daemon := (freshNode.serve (fun _ _ => .smooth) (Node.loadRequest freshIntf)).2

/-- The node with the program on both interfaces. -/
def loadedNode : Node := { freshNode with daemon := loadedDaemon, eps := some .empty, itfs := some .new }

/-- A load leaves it, and the daemon knows both interfaces. -/
theorem freshNode_load : freshNode.loadTransitXdp (fun _ _ => .smooth) freshIntf = (true, loadedNode) ∧
    Known (freshNode.libbpf (fun _ _ => .smooth) (Node.loadRequest freshIntf)) ![ "eth0".toList, "eth1".toList] 8300
      loadedDaemon := by
  have hok : (freshNode.loadTransitXdp (fun _ _ => .smooth) freshIntf).1 = true := by decide +kernel
  obtain ⟨s, hload, -, hknown⟩ := loadTransitXdp_fresh rfl Daemon.start_starts.owned hok
  have hdaemon := loadTransitXdp_daemon (fun _ _ => .smooth) freshIntf freshNode
  rw [hload, ← loadedDaemon] at hdaemon
  dsimp only at hdaemon
  subst hdaemon
  exact ⟨Prod.ext hok hload, hknown⟩

theorem loadedNode_md : loadedNode.daemon.md.isSome := freshNode_load.2.isSome

theorem loadedNode_itf : trnGetItfContext loadedNode.transitd "eth0".toList = some ⟨2, 8300, 0, xdpFwd⟩ := by
  have hctx := freshNode_load.2.itfContext freshNode.ifNametoindex "eth0".toList
  exact hctx.trans (if_neg (by decide)) |>.trans (if_pos rfl)

end ArionDp
