import ArionDp.Manager.Delivery
import ArionDp.Manager.PortsPush

/-!
# Nodes and the manager's maps

`World.maps` says which endpoints each node has after the calls of `update_ep` that the manager makes. Here these calls
are carried out as commands, and the nodes have the endpoints that `World.maps` says.

* `carry`: the maps after calls, and **`PortsCall.run_carry`**: the calls that a request for ports makes;
* `Mirrors`, **`runUpdates_mirrors`**: nodes with the endpoints of the maps have those of the maps after calls;
* **`portsCalls_forward`**: what the gateways forward after requests for ports.
-/

namespace ArionDp

open Wire JsonText PyText Py

/-! ## Calls on maps -/

/-- The maps after calls. -/
def carry (num : JsonNumber) (calls : List UpdateEp) (maps : Text → Option EndpointsMap) : Text → Option EndpointsMap :=
  calls.foldl (fun maps c n => if n = c.1 then trnRpcUpdateEp num c.2 (maps n) else maps n) maps

section Carry

variable {num : JsonNumber} {maps : Text → Option EndpointsMap}

theorem carry_one (c : UpdateEp) (n : Text) :
    carry num [c] maps n = if n = c.1 then trnRpcUpdateEp num c.2 (maps n) else maps n := rfl

theorem carry_append (calls calls' : List UpdateEp) :
    carry num (calls ++ calls') maps = carry num calls' (carry num calls maps) := List.foldl_append

theorem carry_nodes (env : Env) (chunk : List EpRpc) (ips : List Text) (w : World) :
    (ips.foldl (fun w ip => (sendEps env chunk ip w).2) w).maps =
      carry env.num (ips.map fun ip => (ip, chunk)) w.maps := by
  induction ips generalizing w with
  | nil => rfl
  | cons ip ips ih => exact ih _

/-- The calls of a push. -/
theorem carry_pushCalls (env : Env) {ips : List Text} (hn : ips.Nodup) (l : List EpRpc) (w : World) :
    carry env.num (pushCalls ips l) w.maps = sendTo env.num ips l w.maps := by
  have hchunk (chunk : List EpRpc) (hl : chunk.length ≤ epBatchMax) (w : World) :
      carry env.num (ips.map fun ip => (ip, chunk)) w.maps = sendTo env.num ips chunk w.maps := by
    have hsend := (forEach_modifyState _ ips w).symm.trans (forEach_sendEps env hl hn w)
    exact (carry_nodes ..).symm.trans (congrArg World.maps (Prod.mk.inj hsend).2)
  have hchunks (chunks : List (List EpRpc)) (hl : ∀ chunk ∈ chunks, chunk.length ≤ epBatchMax) (w : World) :
      carry env.num (chunks.flatMap fun chunk => ips.map fun ip => (ip, chunk)) w.maps =
        sendTo env.num ips chunks.flatten w.maps := by
    induction chunks generalizing w with
    | nil => exact (sendTo_nil ..).symm
    | cons chunk chunks ih =>
      obtain ⟨hfirst, hrest⟩ := List.forall_mem_cons.1 hl
      rw [List.flatMap_cons, carry_append, hchunk chunk hfirst w, List.flatten_cons, sendTo_append]
      exact ih hrest { w with maps := sendTo env.num ips chunk w.maps }
  rw [pushCalls, hchunks _ (fun chunk hc => length_le_of_mem_pyChunks hc), pyChunks_flatten (Nat.succ_pos _)]

/-- **What a request for ports does to the maps**, whatever stops it: it makes calls, each to a node that there is. -/
theorem PortsCall.run_carry (env : Env) (c : PortsCall) (s : PushState) :
    (c.run env s).world.nodeIps = s.world.nodeIps ∧ ∃ calls, (c.run env s).sent = s.sent ++ calls ∧
      (c.run env s).world.maps = carry env.num calls s.world.maps ∧
      ∀ u ∈ calls, u.1 ∈ s.world.nodeIps.ips ∧ u.2.length ≤ epBatchMax := by
  rw [c.run_eq]
  refine Triple.final (I := fun t => t.world.nodeIps = s.world.nodeIps ∧ ∃ calls, t.sent = s.sent ++ calls ∧
    t.world.maps = carry env.num calls s.world.maps ∧
      ∀ u ∈ calls, u.1 ∈ s.world.nodeIps.ips ∧ u.2.length ≤ epBatchMax)
    (allPortsPostSent_spec s |>.conseq (fun _ h => h) ?_ ?_) rfl
  · rintro _ t ⟨-, es, rows, hosts, -, -, rfl⟩
    refine ⟨rfl, _, rfl, (carry_pushCalls env s.world.nodeIps.nodup _ s.world).symm, fun u hu => ?_⟩
    obtain ⟨chunk, hchunk, hu⟩ := List.mem_flatMap.1 hu
    obtain ⟨ip, hip, rfl⟩ := List.mem_map.1 hu
    exact ⟨hip, length_le_of_mem_pyChunks hchunk⟩
  · rintro _ t ⟨⟨_, _, es, rows, hosts, -, -, -, -, -, hworld⟩, hsent⟩
    rw [hworld, hsent]
    exact ⟨rfl, [], (List.append_nil _).symm, rfl, nofun⟩

/-- Requests for ports, one after the other. -/
theorem runs_carry (env : Env) (cs : List PortsCall) (s : PushState) :
    (cs.foldl (fun s c => c.run env s) s).world.nodeIps = s.world.nodeIps ∧
      ∃ calls, (cs.foldl (fun s c => c.run env s) s).sent = s.sent ++ calls ∧
        (cs.foldl (fun s c => c.run env s) s).world.maps = carry env.num calls s.world.maps ∧
        ∀ u ∈ calls, u.1 ∈ s.world.nodeIps.ips ∧ u.2.length ≤ epBatchMax := by
  induction cs generalizing s with
  | nil => exact ⟨rfl, [], (List.append_nil _).symm, rfl, nofun⟩
  | cons c cs ih =>
    obtain ⟨hips, calls, hsent, hmaps, hcalls⟩ := c.run_carry env s
    obtain ⟨hips', calls', hsent', hmaps', hcalls'⟩ := ih (c.run env s)
    rw [hips] at hips' hcalls'
    refine ⟨hips', calls ++ calls', ?_, ?_, List.forall_mem_append.2 ⟨hcalls, hcalls'⟩⟩
    · rw [List.foldl_cons, hsent', hsent, List.append_assoc]
    · rw [List.foldl_cons, hmaps', hmaps, carry_append]

end Carry

/-! ## Calls as commands -/

section Nodes

variable {ι : Type} [DecidableEq ι] (fs : FileSystem) (L : Loader) (benchmark : Bool)

/-- The calls as commands, one after the other. -/
def runUpdates : List UpdateEp → Net ι Node → Option (Net ι Node)
  | [], net => some net
  | c :: cs, net => (runCmd fs (cmds L) (TrnRpc.command ⟨c.1, benchmark⟩ (.updateEp (epsConf c.2))) net).bind fun r =>
    runUpdates cs r.2

/-- The node that answers under an address. -/
def nodeAt (net : Net ι Node) (ip : Text) : Option ι := net.clntCreate (bytesOf ip) (ascii "udp")

/-- Addresses of different nodes, which a command line can have. -/
structure NodesPlaced (net : Net ι Node) (ips : List Text) : Prop where
  plain : ∀ ip ∈ ips, (∀ c ∈ ip, Shell.plain c = true) ∧ ip ≠ []
  apart : ∀ ip ∈ ips, ∀ ip' ∈ ips, ∀ i, nodeAt net ip = some i → nodeAt net ip' = some i → ip = ip'

/-- **The nodes have the endpoints that the maps say.** -/
def Mirrors (net : Net ι Node) (ips : List Text) (maps : Text → Option EndpointsMap) : Prop :=
  ∀ ip ∈ ips, ∀ i, nodeAt net ip = some i → (net.nodes i).eps.map BoundedMap.lookup = maps ip

/-- No more endpoints are in use than the maps have room for. -/
def FitsAll (ips : List Text) (maps : Text → Option EndpointsMap) : Prop := ∀ ip ∈ ips, FitsMap (maps ip)

/-- A call to one of the nodes, whose configuration is read as it was written. -/
structure UpdateEp.Delivered (ips : List Text) (c : UpdateEp) : Prop where
  node : c.1 ∈ ips
  short : c.2.length ≤ tranMaxEpBatchSize
  inRange : ∀ e ∈ c.2, e.InRange

variable {net : Net ι Node} {ips : List Text} {maps : Text → Option EndpointsMap} {num : JsonNumber}

/-- A call adds endpoints. -/
theorem FitsAll.of_carry {calls : List UpdateEp} (hcalls : ∀ c ∈ calls, c.Delivered ips)
    (h : FitsAll ips (carry num calls maps)) : FitsAll ips maps := by
  induction calls generalizing maps with
  | nil => exact h
  | cons c calls ih =>
    obtain ⟨hc, hrest⟩ := List.forall_mem_cons.1 hcalls
    have hfirst : FitsAll ips (carry num [c] maps) := ih hrest h
    intro ip hip m hm
    have hafter := hfirst ip hip
    rw [carry_one] at hafter
    split_ifs at hafter
    · rw [trnRpcUpdateEp_eq num c.2 hc.short, Option.mem_def.1 hm, Option.map_some] at hafter
      have hputs := hafter _ rfl
      rw [← puts_entries] at hputs
      exact hputs.of_puts
    · exact hafter m hm

/-- The endpoints of a node after a call. -/
theorem updateEp_mirrors {c : UpdateEp} (hc : c.Delivered ips) {x : Node}
    (hx : x.eps.map BoundedMap.lookup = maps c.1) (hfits : FitsMap (trnRpcUpdateEp num c.2 (maps c.1))) :
    ((x.updateEp (c.2.map EpRpc.endpoint)).2.eps.map BoundedMap.lookup) = trnRpcUpdateEp num c.2 (maps c.1) := by
  have hread : c.2.map (EpRpc.trnEp num) = c.2.map EpRpc.endpoint :=
    List.map_congr_left fun e he => trnEp_of_inRange num (hc.inRange e he)
  rw [trnRpcUpdateEp_eq num c.2 hc.short, hread] at hfits ⊢
  rw [← hx] at hfits ⊢
  cases heps : x.eps with
  | none =>
    simp only [Node.updateEp, heps]
    rfl
  | some m =>
    rw [heps] at hfits
    obtain ⟨m', hrun, hlook⟩ := updateEp_of_fits (hfits _ rfl)
    simp only [Node.updateEp, heps, hrun, Option.map_some, hlook]

/-- **A call on nodes.** -/
theorem runUpdate_mirrors (hp : NodesPlaced net ips) (h : Mirrors net ips maps) {c : UpdateEp} (hc : c.Delivered ips)
    (hfits : FitsAll ips (carry num [c] maps)) :
    ∃ status net', runCmd fs (cmds L) (TrnRpc.command ⟨c.1, benchmark⟩ (.updateEp (epsConf c.2))) net =
        some (status, net') ∧ net'.clntCreate = net.clntCreate ∧ (∀ i, (net'.nodes i).itfs = (net.nodes i).itfs) ∧
      Mirrors net' ips (carry num [c] maps) := by
  have haddressed : TrnRpc.Addressed ⟨c.1, benchmark⟩ := ⟨(hp.plain c.1 hc.node).1, (hp.plain c.1 hc.node).2⟩
  let push : PushCmd := ⟨⟨c.1, benchmark⟩, haddressed, .eps c.2 hc.inRange hc.short⟩
  obtain ⟨status, hrun⟩ := runCmd_push fs L net push
  refine ⟨status, _, hrun, effect_clntCreate L push, fun i => ?_, fun ip hip i hi => ?_⟩
  · rw [PushCmd.effect]
    cases push.target net with
    | none => rfl
    | some j =>
      by_cases hij : i = j
      · subst hij
        simp only [Net.update, if_true]
        rfl
      · simp only [Net.update, if_neg hij]
  · rw [nodeAt, effect_clntCreate] at hi
    have hbefore := h ip hip i hi
    by_cases hnode : ip = c.1
    · subst hnode
      have htarget : push.target net = some i := hi
      rw [carry_one, if_pos rfl, PushCmd.effect, htarget]
      simp only [Net.update, if_true]
      refine updateEp_mirrors hc hbefore ?_
      have hafter := hfits c.1 hip
      rwa [carry_one, if_pos rfl] at hafter
    · rw [carry_one, if_neg hnode, PushCmd.effect]
      cases htarget : push.target net with
      | none => exact hbefore
      | some j =>
        have hij : i ≠ j := fun heq => hnode (hp.apart ip hip c.1 hc.node i hi (htarget.trans (congrArg some heq.symm)))
        simp only [Net.update, if_neg hij]
        exact hbefore

/-- **Calls on nodes**, one after the other: nodes that mirror maps mirror them after the calls. -/
theorem runUpdates_mirrors (hp : NodesPlaced net ips) (h : Mirrors net ips maps) {calls : List UpdateEp}
    (hcalls : ∀ c ∈ calls, c.Delivered ips) (hfits : FitsAll ips (carry num calls maps)) :
    ∃ net', runUpdates fs L benchmark calls net = some net' ∧ net'.clntCreate = net.clntCreate ∧
      (∀ i, (net'.nodes i).itfs = (net.nodes i).itfs) ∧ Mirrors net' ips (carry num calls maps) := by
  induction calls generalizing net maps with
  | nil => exact ⟨net, rfl, rfl, fun _ => rfl, h⟩
  | cons c calls ih =>
    obtain ⟨hc, hrest⟩ := List.forall_mem_cons.1 hcalls
    have hfirst : FitsAll ips (carry num [c] maps) := FitsAll.of_carry hrest hfits
    obtain ⟨status, net₁, hrun, hclnt, hitfs, h₁⟩ := runUpdate_mirrors fs L benchmark hp h hc hfirst
    have hp₁ : NodesPlaced net₁ ips := by
      refine ⟨hp.plain, ?_⟩
      simp only [nodeAt, hclnt]
      exact hp.apart
    obtain ⟨net', hrun', hclnt', hitfs', h'⟩ := ih hp₁ h₁ hrest hfits
    refine ⟨net', ?_, hclnt'.trans hclnt, fun i => (hitfs' i).trans (hitfs i), h'⟩
    rw [runUpdates, hrun, Option.bind_some, hrun']

end Nodes

/-! ## Requests for ports -/

section Ports

variable {ι : Type} [DecidableEq ι] (fs : FileSystem) (L : Loader) (benchmark : Bool) {net : Net ι Node}

/-- **From requests for ports to packets.** The calls that any run of requests for ports makes, also of requests that
stop somewhere, are carried out by the nodes. After them nodes that had the endpoints of the manager's maps have those
of the maps after the run, if these fit. A gateway transmits an admitted packet if and only if the manager's map of its
node has the destination, and to the host that it has there. -/
theorem portsCalls_forward (env : Env) (cs : List PortsCall) {s : PushState} (hsent : s.sent = []) {t : PushState}
    (ht : cs.foldl (fun s c => c.run env s) s = t) (hrange : ∀ c ∈ t.sent, ∀ e ∈ c.2, e.InRange)
    (hp : NodesPlaced net s.world.nodeIps.ips) (h : Mirrors net s.world.nodeIps.ips s.world.maps)
    (hfits : FitsAll s.world.nodeIps.ips t.world.maps) :
    ∃ net', runUpdates fs L benchmark t.sent net = some net' ∧ Mirrors net' s.world.nodeIps.ips t.world.maps ∧
      ∀ ip ∈ s.world.nodeIps.ips, ∀ i, nodeAt net ip = some i →
        ∀ f, (net.nodes i).itfs = some f → ∀ m, t.world.maps ip = some m →
          ∀ (ctx : XdpMd) (conf : TunnelIface), f.lookup ctx.ingressIfindex.toNat = some conf →
            ∀ ent inner, IpFrame conf ctx.data ent inner → ∀ sgCidrMap xsksMap jmpTable,
              let maps := (net'.nodes i).maps sgCidrMap xsksMap jmpTable
              let key : EndpointKey := ⟨frameVni ctx.data, ld32 ctx.data (inner + 30)⟩
              ((transit .compiled maps ctx).verdict = .tx ↔
                SgAdmits maps (ipPacket conf ctx.data ent inner) ∧ (m key).isSome) ∧
              ((transit .compiled maps ctx).verdict = .tx →
                ∃ ep, m key = some ep ∧ Forwarded ctx.data (transit .compiled maps ctx).data inner ep) := by
  obtain ⟨-, calls, hcalls, hmaps, hall⟩ := runs_carry env cs s
  rw [ht] at hcalls hmaps
  rw [hsent, List.nil_append] at hcalls
  rw [hcalls] at hrange ⊢
  rw [hmaps] at hfits ⊢
  obtain ⟨net', hrun, hclnt, hitfs, hmirrors⟩ := runUpdates_mirrors fs L benchmark hp h
    (fun c hc => ⟨(hall c hc).1, (hall c hc).2, hrange c hc⟩) hfits
  refine ⟨net', hrun, hmirrors, ?_⟩
  intro ip hip i hi f hf m hm ctx conf hconf ent inner hframe sgCidrMap xsksMap jmpTable
  dsimp only
  have hi' : nodeAt net' ip = some i := by
    rw [nodeAt, hclnt]
    exact hi
  have heps := (hmirrors ip hip i hi').trans hm
  have hitf : ((net'.nodes i).maps sgCidrMap xsksMap jmpTable).ifConfigMap ctx.ingressIfindex = some conf := by
    rw [← hconf]
    exact congrArg (fun o : Option IfConfigMap => o.bind fun f => f.lookup ctx.ingressIfindex.toNat)
      ((hitfs i).trans hf)
  have hlookup : ((net'.nodes i).maps sgCidrMap xsksMap jmpTable).endpointsMap = m := by
    obtain ⟨m', hm', rfl⟩ := Option.map_eq_some_iff.1 heps
    exact congrArg (fun (o : Option EndpointStore) k => o.bind fun m => m.lookup k) hm'
  rw [← hlookup]
  refine ⟨?_, fun hv => forwarded_of_ipFrame hitf hframe hv⟩
  rw [transit_ip_tx_iff hitf hframe, knownIp_iff hframe]
  rfl

end Ports

/-- A manager with a node that has its program, and a network with VNI 7. -/
def portStart : PushState :=
  ⟨{ World.start ⟨"z".toList, [], []⟩ (.int 8300) with
      nodeIps := NodeIps.empty.insert "10.0.0.7".toList
      vnis := fun v => if v = "v".toList then some (.int 7) else none
      maps := fun _ => some fun _ => none }, []⟩

/-- A request for a port at 192.168.0.2. -/
def portCalls : List PortsCall := [.post .none [samplePort "p" "192.168.0.2"]]

/-- The node, with the gateway of the sample frames. -/
def portNet : Net Unit Node :=
  ⟨fun _ _ => some (), fun _ => { loadedNode with itfs := some ⟨fun k => if k = 2 then sampleIface else .zero⟩ }⟩

theorem portNet_mirrors : Mirrors portNet portStart.world.nodeIps.ips portStart.world.maps := fun _ _ _ _ =>
  congrArg some (funext BoundedMap.lookup_empty)

theorem portNet_placed : NodesPlaced portNet portStart.world.nodeIps.ips where
  plain := by decide
  apart := by
    intro ip hip ip' hip' _ _ _
    exact (List.mem_singleton.1 hip).trans (List.mem_singleton.1 hip').symm

def portEntry : EpRpc := ⟨7, 0xc0a80002, 0xac101149, 0xaabbcc000001, 0x20000000049⟩

theorem portCalls_sent : (portCalls.foldl (fun s c => c.run .default s) portStart).sent =
    [("10.0.0.7".toList, [portEntry])] := by decide +kernel

theorem portCalls_maps (n : Text) : (portCalls.foldl (fun s c => c.run .default s) portStart).world.maps n =
    if n = "10.0.0.7".toList then some (updateEndpoints (fun _ => none) [portEntry.trnEp Env.default.num])
    else some fun _ => none := by
  obtain ⟨-, calls, hsent, hmaps, -⟩ := runs_carry .default portCalls portStart
  obtain rfl : calls = [("10.0.0.7".toList, [portEntry])] := hsent.symm.trans portCalls_sent
  rw [hmaps, carry_one, trnRpcUpdateEp_eq _ _ (by decide)]
  rfl

theorem portCalls_fit : FitsAll portStart.world.nodeIps.ips
    (portCalls.foldl (fun s c => c.run .default s) portStart).world.maps := by
  intro ip hip m hm
  rw [portCalls_maps, if_pos (List.mem_singleton.1 hip)] at hm
  obtain rfl := Option.some.inj hm
  have hempty : (BoundedMap.empty : EndpointStore).lookup = fun _ => none := funext BoundedMap.lookup_empty
  rw [← hempty]
  exact fitsIn_empty (by decide)

theorem portNet_ipFrame : IpFrame sampleIface (sampleFrame ipprotoTcp) 0 50 where
  len := by decide
  proto := by decide
  entrance := by decide
  daddr := by decide
  ttl := by decide
  protocol := by decide
  overlay := .inl ⟨⟨by decide, rfl, by decide⟩, rfl⟩
  ethertype := by decide
  ipLen := by decide

theorem portsCalls_forward_one : ∃ net', runUpdates noFiles refusingLoader false
    (portCalls.foldl (fun s c => c.run .default s) portStart).sent portNet = some net' ∧
      (transit .compiled ((net'.nodes ()).maps (vniRules tranSgPass) (fun _ => false) fun _ => false)
        (sampleCtx ipprotoTcp)).verdict = .tx := by
  have hrange : ∀ c ∈ (portCalls.foldl (fun s c => c.run .default s) portStart).sent, ∀ e ∈ c.2, e.InRange := by
    rw [portCalls_sent]
    decide
  obtain ⟨net', hrun, -, hall⟩ := portsCalls_forward noFiles refusingLoader false .default portCalls rfl rfl hrange
    portNet_placed portNet_mirrors portCalls_fit
  obtain ⟨hiff, -⟩ := hall "10.0.0.7".toList (List.mem_singleton_self _) () rfl _ rfl _
    ((portCalls_maps _).trans (if_pos rfl)) (sampleCtx ipprotoTcp) sampleIface rfl 0 50 portNet_ipFrame
    (vniRules tranSgPass) (fun _ => false) fun _ => false
  exact ⟨net', hrun, hiff.2 ⟨sampleFrame_admits, by decide⟩⟩

end ArionDp
