import ArionDp.Dmn.EndpointStore
import ArionDp.Manager.RpcRuns
import ArionDp.Xdp.ArpReply

/-!
# What the gateway forwards

The manager sends requests to nodes, one command after the other, and the program of each node forwards by the maps
that the requests have left.

* `NodePush`, `PushCmd.effect`, **`runPushes_eq`**: the requests, and what a run of their commands does to all nodes;
* `pushedTo`, **`eps_foldl`**, **`itfs_foldl`**, `runPushes_maps`: the maps of a node after a run;
* **`pushes_forward`**: packets leave for the endpoint that was pushed last, and ARP requests for it are answered;
* **`pushes_silent`**: nothing leaves on an interface whose gateways have not been pushed.
-/

namespace ArionDp

open Wire Inet JsonText PyText

/-! ## Requests -/

/-- A request to a node: endpoints, the gateways of an interface, a load, or a method that changes nothing. -/
inductive NodePush
  | eps (l : List EpRpc) (inRange : ∀ e ∈ l, e.InRange) (short : l.length ≤ tranMaxEpBatchSize)
  | droplet (itf : Text) (es : List RpcAddr) (gws : List GwAddr) (quotable : ∀ c ∈ itf, Quotable c)
      (room : itf.length < tranMaxItfSize) (denotes : List.Forall₂ Denotes es gws)
      (short : gws.length ≤ tranMaxZgcEntrances)
  | load (itfTenant itfZgc : Text) (iboPort : ℕ) (tenant : ∀ c ∈ itfTenant, Quotable c)
      (tenantRoom : itfTenant.length < tranMaxItfSize) (zgc : ∀ c ∈ itfZgc, Quotable c)
      (zgcRoom : itfZgc.length < tranMaxItfSize) (port : iboPort < 2 ^ 16)
  | other (c : TrnRpcCall) (idle : c.Idle) (usual : ∀ benchmark, c.Usual benchmark)

namespace NodePush

/-- The method that makes the request. -/
def call : NodePush → TrnRpcCall
  | eps l .. => .updateEp (epsConf l)
  | droplet itf _ gws .. => .updateDroplet (ItfConf.toJson ⟨some itf, gws.length, gws⟩)
  | load itfTenant itfZgc iboPort .. => .loadTransitXdp itfTenant itfZgc iboPort
  | other c .. => c

/-- What the request leaves on its node. -/
def onNode (L : Loader) (benchmark : Bool) : NodePush → Node → Node
  | eps l .., x => (x.updateEp (l.map EpRpc.endpoint)).2
  | droplet itf es gws .., x => (x.updateDroplet ⟨itf, BitVec.ofNat 32 gws.length, es⟩).2
  | load itfTenant itfZgc iboPort .., x => (L.loadTransitXdp
      ⟨itfTenant, itfZgc, bpfHtons (BitVec.ofNat 16 iboPort), if benchmark then 0 else 1⟩ x).2
  | other .., x => x

/-- The endpoints of a request. -/
def endpoints : NodePush → List TrnEp
  | eps l .. => l.map EpRpc.endpoint
  | _ => []

/-- The gateways of a request, and the record that it leaves, under the index of its interface. -/
def shown (d : Transitd) (stack : Fin tranMaxZgcEntrances → ZgcEntrance) :
    NodePush → Option (ℕ × List GwAddr × TunnelIface)
  | droplet itf es gws .. => (d.entry stack ⟨itf, BitVec.ofNat 32 gws.length, es⟩).map fun e => (e.1, gws, e.2)
  | _ => none

end NodePush

/-- A request with the node that it is for. -/
structure PushCmd where
  rpc : TrnRpc
  addressed : rpc.Addressed
  push : NodePush

/-- What a request leaves on the node that answers. -/
def PushCmd.onNode (L : Loader) (c : PushCmd) (x : Node) : Node := c.push.onNode L c.rpc.benchmark x

/-- The endpoints of a request. -/
def PushCmd.endpoints (c : PushCmd) : List TrnEp := c.push.endpoints

section Run

variable {ι : Type} [DecidableEq ι] (fs : FileSystem) (L : Loader) (net : Net ι Node)

/-- The node that answers to a request. -/
def PushCmd.target (c : PushCmd) : Option ι := net.clntCreate (bytesOf c.rpc.ip) (ascii "udp")

/-- What a request leaves on the nodes. -/
def PushCmd.effect (c : PushCmd) : Net ι Node :=
  match c.target net with
  | none => net
  | some i => net.update i (c.onNode L (net.nodes i))

/-- The commands of requests, one after the other. -/
def runPushes : List PushCmd → Net ι Node → Option (Net ι Node)
  | [], net => some net
  | c :: cs, net => (runCmd fs (cmds L) (c.rpc.command c.push.call) net).bind fun r => runPushes cs r.2

/-- The requests to a node. -/
def pushedTo (i : ι) (cs : List PushCmd) : List PushCmd := cs.filter fun c => c.target net = some i

variable {net}

/-- A request that is answered. -/
theorem runCmd_answered (c : PushCmd) {i : ι} (hi : c.target net = some i) :
    ∃ status, runCmd fs (cmds L) (c.rpc.command c.push.call) net =
      some (status, net.update i (c.onNode L (net.nodes i))) := by
  obtain ⟨rpc, hrpc, push⟩ := c
  cases push with
  | eps l inRange short =>
    have hplain := (epsConf_plain inRange short).mono (show 3 ≤ cJsonNestingLimit by decide)
    have hfind : (cmds L).find? (fun x => x.1 = ascii "update-ep") =
        some (ascii "update-ep", fun conf x => some (parsedCmd trnCliParseEp Node.updateEp conf x)) := rfl
    exact ⟨_, runCmd_reaches (c := .updateEp _) fs hrpc (fun _ _ h => TrnRpcCall.noConfusion h) hplain hfind hi
      (congrArg some (parsedCmd_updateEp inRange short _))⟩
  | droplet itf es gws quotable room denotes short =>
    have hplain := (itfConf_plain quotable denotes short).mono (show 3 ≤ cJsonNestingLimit by decide)
    have hfind : (cmds L).find? (fun x => x.1 = ascii "update-droplet") =
        some (ascii "update-droplet", writingCmd dropletWrites (parsedCmd trnCliParseDroplet Node.updateDroplet)) := rfl
    exact ⟨_, runCmd_reaches (c := .updateDroplet _) fs hrpc (fun _ _ h => TrnRpcCall.noConfusion h) hplain hfind hi
      (writingCmd_updateDroplet quotable room denotes short _)⟩
  | load itfTenant itfZgc iboPort tenant tenantRoom zgc zgcRoom port =>
    exact ⟨_, runCmd_loadTransitXdp fs L hrpc tenant tenantRoom zgc zgcRoom port hi rfl⟩
  | other call idle usual =>
    refine ⟨1, ?_⟩
    rw [PushCmd.onNode, NodePush.onNode, Net.update_nodes]
    exact (cmdFails_idle ι fs L hrpc idle (usual _)).runCmd fs L net

/-- A request that is not answered. -/
theorem runCmd_noAnswer (c : PushCmd) (hi : c.target net = none) :
    ∃ status, runCmd fs (cmds L) (c.rpc.command c.push.call) net = some (status, net) := by
  obtain ⟨rpc, hrpc, push⟩ := c
  cases push with
  | eps l inRange short =>
    have hplain := (epsConf_plain inRange short).mono (show 3 ≤ cJsonNestingLimit by decide)
    exact ⟨1, (runCmd_quoted (c := .updateEp _) fs L net hrpc
      ⟨fun _ _ h => TrnRpcCall.noConfusion h, hplain.no_quote⟩).trans (callSubcmd_unanswered hi)⟩
  | droplet itf es gws quotable room denotes short =>
    have hplain := (itfConf_plain quotable denotes short).mono (show 3 ≤ cJsonNestingLimit by decide)
    exact ⟨1, (runCmd_quoted (c := .updateDroplet _) fs L net hrpc
      ⟨fun _ _ h => TrnRpcCall.noConfusion h, hplain.no_quote⟩).trans (callSubcmd_unanswered hi)⟩
  | load itfTenant itfZgc iboPort tenant tenantRoom zgc zgcRoom port =>
    exact ⟨1, (runCmd_quoted (c := .loadTransitXdp _ _ _) fs L net hrpc
      ⟨fun _ _ h => TrnRpcCall.noConfusion h, (load_plain tenant zgc port _).no_quote⟩).trans
      (callSubcmd_unanswered hi)⟩
  | other call idle usual => exact ⟨1, (cmdFails_idle ι fs L hrpc idle (usual _)).runCmd fs L net⟩

variable (net) in
/-- **What a request does** to the nodes. -/
theorem runCmd_push (c : PushCmd) :
    ∃ status, runCmd fs (cmds L) (c.rpc.command c.push.call) net = some (status, c.effect L net) := by
  rw [PushCmd.effect]
  cases hi : c.target net with
  | none => exact runCmd_noAnswer fs L c hi
  | some i => exact runCmd_answered fs L c hi

/-- **A run of requests** ends, with what each of them leaves. -/
theorem runPushes_eq (cs : List PushCmd) :
    runPushes fs L cs net = some (cs.foldl (fun net c => c.effect L net) net) := by
  induction cs generalizing net with
  | nil => rfl
  | cons c cs ih =>
    obtain ⟨status, hrun⟩ := runCmd_push fs L net c
    rw [runPushes, hrun, Option.bind_some, ih, List.foldl_cons]

theorem effect_clntCreate (c : PushCmd) : (c.effect L net).clntCreate = net.clntCreate := by
  rw [PushCmd.effect]
  cases c.target net <;> rfl

theorem pushedTo_effect (c : PushCmd) (i : ι) (cs : List PushCmd) :
    pushedTo (c.effect L net) i cs = pushedTo net i cs := by
  simp only [pushedTo, PushCmd.target, effect_clntCreate]
  rfl

variable (net) in
/-- A node after a run: the requests to it, one after the other. -/
theorem nodes_foldl (cs : List PushCmd) (i : ι) : (cs.foldl (fun net c => c.effect L net) net).nodes i =
    (pushedTo net i cs).foldl (fun x c => c.onNode L x) (net.nodes i) := by
  induction cs generalizing net with
  | nil => rfl
  | cons c cs ih =>
    rw [List.foldl_cons, ih, pushedTo_effect, pushedTo, pushedTo, List.filter_cons]
    cases hc : c.target net with
    | none =>
      rw [if_neg fun h => Option.some_ne_none i (of_decide_eq_true h).symm, PushCmd.effect, hc]
    | some j =>
      by_cases hj : j = i
      · subst hj
        rw [if_pos (decide_eq_true rfl), List.foldl_cons, PushCmd.effect, hc]
        simp only [Net.update, if_true]
      · rw [if_neg fun h => hj (Option.some.inj (of_decide_eq_true h)), PushCmd.effect, hc]
        simp only [Net.update, if_neg (Ne.symm hj)]

end Run

/-! ## Maps -/

section Maps

variable {k : Outcomes} {x : Node}

/-- A request to a node that has loaded its program leaves the daemon alone. -/
theorem onNode_daemon (h : x.daemon.md.isSome) (c : PushCmd) :
    ∃ eps itfs, c.onNode (.ofDaemon k) x = { x with eps := eps, itfs := itfs } := by
  obtain ⟨rpc, hrpc, push⟩ := c
  cases push with
  | eps | droplet | other => exact ⟨_, _, rfl⟩
  | load itfTenant itfZgc iboPort =>
    exact ⟨_, _, congrArg Prod.snd (loadTransitXdp_loaded h)⟩

theorem onNode_md (h : x.daemon.md.isSome) (c : PushCmd) : (c.onNode (.ofDaemon k) x).daemon.md.isSome := by
  obtain ⟨eps, itfs, hnode⟩ := onNode_daemon (k := k) h c
  rw [hnode]
  exact h

/-- A load changes nothing on a node that has loaded its program. -/
theorem onNode_load (h : x.daemon.md.isSome) {rpc : TrnRpc} {hrpc : rpc.Addressed} {itfTenant itfZgc : Text}
    {iboPort : ℕ} {tenant tenantRoom zgc zgcRoom port} :
    PushCmd.onNode (.ofDaemon k) ⟨rpc, hrpc, .load itfTenant itfZgc iboPort tenant tenantRoom zgc zgcRoom port⟩ x = x :=
  congrArg Prod.snd (loadTransitXdp_loaded h)

/-- **The endpoints of a loaded node after requests**, as long as they fit. -/
theorem eps_foldl (hmd : x.daemon.md.isSome) {m : EndpointStore} (hm : x.eps = some m) (cs : List PushCmd)
    (hfits : BoundedMap.FitsIn tranMaxNep (updateEndpoints m.lookup (cs.flatMap PushCmd.endpoints))) :
    ∃ m' : EndpointStore, (cs.foldl (fun x c => c.onNode (.ofDaemon k) x) x).eps = some m' ∧
      m'.lookup = updateEndpoints m.lookup (cs.flatMap PushCmd.endpoints) := by
  induction cs generalizing x m with
  | nil => exact ⟨m, hm, rfl⟩
  | cons c cs ih =>
    rw [List.flatMap_cons, updateEndpoints_append] at hfits ⊢
    obtain ⟨m₁, hm₁, hlook⟩ : ∃ m₁ : EndpointStore, (c.onNode (.ofDaemon k) x).eps = some m₁ ∧
        m₁.lookup = updateEndpoints m.lookup c.endpoints := by
      obtain ⟨rpc, hrpc, push⟩ := c
      cases push with
      | eps l inRange short =>
        have hfirst := hfits
        rw [← puts_entries] at hfirst
        obtain ⟨m₁, hrun, hlook⟩ := updateEp_of_fits hfirst.of_puts
        have heps : (EndpointStore.updateEp1Svc x.eps (l.map EpRpc.endpoint)).2 = some m₁ := by
          rw [hm]
          exact congrArg Prod.snd hrun
        exact ⟨m₁, heps, hlook⟩
      | droplet => exact ⟨m, hm, rfl⟩
      | load => exact ⟨m, (congrArg Node.eps (onNode_load hmd)).trans hm, rfl⟩
      | other => exact ⟨m, hm, rfl⟩
    rw [← hlook] at hfits ⊢
    exact ih (onNode_md hmd c) hm₁ hfits

/-- The last request about the interface with an index: its gateways, and its record. -/
def shownAt (d : Transitd) (stack : Fin tranMaxZgcEntrances → ZgcEntrance) (cs : List PushCmd) (k : ℕ) :
    Option (List GwAddr × TunnelIface) :=
  BoundedMap.lastOf (cs.filterMap fun c => c.push.shown d stack) k

/-- **The interfaces of a loaded node after requests**: the record of the last one about each. -/
theorem itfs_foldl (hmd : x.daemon.md.isSome) {f : IfConfigMap} (hf : x.itfs = some f) (cs : List PushCmd) :
    ∃ f' : IfConfigMap, (cs.foldl (fun x c => c.onNode (.ofDaemon k) x) x).itfs = some f' ∧
      f'.lookup = BoundedMap.puts f.lookup
        ((cs.filterMap fun c => c.push.shown x.transitd x.stack).map fun e => (e.1, e.2.2)) := by
  induction cs generalizing x f with
  | nil => exact ⟨f, hf, rfl⟩
  | cons c cs ih =>
    obtain ⟨f₁, hf₁, hlook⟩ : ∃ f₁ : IfConfigMap, (c.onNode (.ofDaemon k) x).itfs = some f₁ ∧
        f₁.lookup = BoundedMap.puts f.lookup
          ((c.push.shown x.transitd x.stack).toList.map fun e => (e.1, e.2.2)) := by
      obtain ⟨rpc, hrpc, push⟩ := c
      cases push with
      | eps => exact ⟨f, hf, rfl⟩
      | load => exact ⟨f, (congrArg Node.itfs (onNode_load hmd)).trans hf, rfl⟩
      | other => exact ⟨f, hf, rfl⟩
      | droplet itf es gws quotable room denotes short =>
        obtain ⟨hnone, hsome⟩ :=
          updateDroplet_entry x.transitd x.stack ⟨itf, BitVec.ofNat 32 gws.length, es⟩ f
        rw [PushCmd.onNode, NodePush.onNode, Node.updateDroplet, hf, NodePush.shown]
        cases he : x.transitd.entry x.stack ⟨itf, BitVec.ofNat 32 gws.length, es⟩ with
        | none => exact ⟨f, by rw [hnone he], rfl⟩
        | some e =>
          obtain ⟨f₁, hrun, hlook⟩ := hsome e he
          exact ⟨f₁, by rw [hrun], hlook⟩
    obtain ⟨f', hf', hrest⟩ := ih (onNode_md hmd c) hf₁
    refine ⟨f', hf', ?_⟩
    obtain ⟨eps, itfs, hnode⟩ := onNode_daemon (k := k) hmd c
    have htransitd : (c.onNode (.ofDaemon k) x).transitd = x.transitd := by rw [hnode]; rfl
    have hstack : (c.onNode (.ofDaemon k) x).stack = x.stack := by rw [hnode]
    rw [hrest, hlook, ← BoundedMap.puts_append, ← List.map_append, htransitd, hstack, List.filterMap_cons]
    cases c.push.shown x.transitd x.stack <;> rfl

theorem lookup_itfs {f f' : IfConfigMap} {d : Transitd} {stack : Fin tranMaxZgcEntrances → ZgcEntrance}
    {cs : List PushCmd} (h : f'.lookup = BoundedMap.puts f.lookup
      ((cs.filterMap fun c => c.push.shown d stack).map fun e => (e.1, e.2.2))) (k : ℕ) :
    f'.lookup k = ((shownAt d stack cs k).map Prod.snd).or (f.lookup k) := by
  rw [h, BoundedMap.puts_apply, BoundedMap.lastOf_map, shownAt]

/-- The record of a request shows its gateways. -/
theorem shows_shownAt {d : Transitd} {stack : Fin tranMaxZgcEntrances → ZgcEntrance} {cs : List PushCmd} {k : ℕ}
    {gws : List GwAddr} {conf : TunnelIface} (h : shownAt d stack cs k = some (gws, conf)) : Shows conf gws := by
  obtain ⟨e, hlast, he⟩ := Option.map_eq_some_iff.1 h
  obtain ⟨⟨rpc, hrpc, push⟩, -, hp⟩ := List.mem_filterMap.1 (List.mem_filter.1 (List.mem_of_getLast? hlast)).1
  cases push with
  | eps | load | other => nomatch hp
  | droplet itf es gws' quotable room denotes short =>
    obtain ⟨e', hentry, rfl⟩ := Option.map_eq_some_iff.1 hp
    obtain ⟨rfl, rfl⟩ := Prod.mk.inj he
    exact shows_entry denotes short hentry

end Maps

/-! ## Packets -/

/-- What the program of a node reads: its maps, with rules, sockets and side programs. -/
def Node.maps (x : Node) (sgCidrMap : Lpm.Trie SecurityGroup) (xsksMap : U32 → Bool) (jmpTable : Prog → Bool) :
    Maps where
  ifConfigMap k := x.itfs.bind fun f => f.lookup k.toNat
  endpointsMap k := x.eps.bind fun m => m.lookup k
  sgCidrMap := sgCidrMap
  xsksMap := xsksMap
  jmpTable := jmpTable

/-- The frame that answers an ARP request for an endpoint. -/
theorem arpReplied_of_arpFrame {maps : Maps} {ctx : XdpMd} {conf : TunnelIface} {ent : Fin tranMaxZgcEntrances}
    {inner : ℕ} (hconf : maps.ifConfigMap ctx.ingressIfindex = some conf) (hframe : ArpFrame conf ctx.data ent inner)
    {ep : Endpoint} (hep : maps.endpointsMap ⟨frameVni ctx.data, ld32 ctx.data (inner + 38)⟩ = some ep) :
    ArpReplied ctx.data (transit .compiled maps ctx).data inner ep := by
  obtain ⟨_, -, hrun, -⟩ := transit_arp hconf hframe
  obtain ⟨hnone, -⟩ | ⟨ep', hsome, -, hreplied⟩ := hrun.replied hframe
  · exact nomatch hnone.symm.trans hep
  · exact Option.some.inj (hsome.symm.trans hep) ▸ hreplied

section Packets

variable {ι : Type} [DecidableEq ι] (fs : FileSystem) (O : Outcomes) {net : Net ι Node} {i : ι}

/-- The maps that the program of a node reads after a run of requests. -/
theorem runPushes_maps (hmd : (net.nodes i).daemon.md.isSome) {m : EndpointStore} (hm : (net.nodes i).eps = some m)
    {f : IfConfigMap} (hf : (net.nodes i).itfs = some f) (cs : List PushCmd) (hfits : BoundedMap.FitsIn tranMaxNep
      (updateEndpoints m.lookup ((pushedTo net i cs).flatMap PushCmd.endpoints))) :
    ∃ net', runPushes fs (.ofDaemon O) cs net = some net' ∧ ∀ sgCidrMap xsksMap jmpTable,
      (∀ k, ((net'.nodes i).maps sgCidrMap xsksMap jmpTable).ifConfigMap k =
        ((shownAt (net.nodes i).transitd (net.nodes i).stack (pushedTo net i cs) k.toNat).map Prod.snd).or
          (f.lookup k.toNat)) ∧
      ((net'.nodes i).maps sgCidrMap xsksMap jmpTable).endpointsMap =
        overwrite m.lookup ((pushedTo net i cs).flatMap PushCmd.endpoints) := by
  have hnode := nodes_foldl (.ofDaemon O) net cs i
  obtain ⟨m', heps, hm'⟩ := eps_foldl hmd hm (pushedTo net i cs) hfits
  obtain ⟨f', hitfs, hf'⟩ := itfs_foldl hmd hf (pushedTo net i cs)
  rw [← hnode] at heps hitfs
  refine ⟨_, runPushes_eq fs _ cs, fun sgCidrMap xsksMap jmpTable => ⟨fun k => ?_, ?_⟩⟩
  · rw [← lookup_itfs hf' k.toNat]
    exact congrArg (fun o : Option IfConfigMap => o.bind fun f => f.lookup k.toNat) hitfs
  · rw [← updateEndpoints_eq_overwrite, ← hm']
    exact congrArg (fun (o : Option EndpointStore) k => o.bind fun m => m.lookup k) heps

variable (net) in
/-- **What the gateway forwards.** After any run of requests to any nodes, loads among them, whose endpoints fit, the
program of a loaded node has for an interface the record of the last request about it, with its gateways. It transmits
an admitted packet if and only if its destination has been pushed to the node or was there before, to the host of the
endpoint that was pushed last, and answers an ARP request in the name of that endpoint. -/
theorem pushes_forward (hmd : (net.nodes i).daemon.md.isSome) {m : EndpointStore} (hm : (net.nodes i).eps = some m)
    (hf : (net.nodes i).itfs.isSome) (cs : List PushCmd) (hfits : BoundedMap.FitsIn tranMaxNep
      (updateEndpoints m.lookup ((pushedTo net i cs).flatMap PushCmd.endpoints)))
    {k : U32} {gws : List GwAddr} {conf : TunnelIface}
    (hk : shownAt (net.nodes i).transitd (net.nodes i).stack (pushedTo net i cs) k.toNat = some (gws, conf))
    (sgCidrMap : Lpm.Trie SecurityGroup) (xsksMap : U32 → Bool) (jmpTable : Prog → Bool) :
    ∃ net', runPushes fs (.ofDaemon O) cs net = some net' ∧ Shows conf gws ∧
      let maps := (net'.nodes i).maps sgCidrMap xsksMap jmpTable
      let pushed := overwrite m.lookup ((pushedTo net i cs).flatMap PushCmd.endpoints)
      maps.ifConfigMap k = some conf ∧ ∀ ctx : XdpMd, ctx.ingressIfindex = k →
        let out := transit .compiled maps ctx
        (∀ ent inner, IpFrame conf ctx.data ent inner →
          (out.verdict = .tx ↔ SgAdmits maps (ipPacket conf ctx.data ent inner) ∧
            (pushed ⟨frameVni ctx.data, ld32 ctx.data (inner + 30)⟩).isSome) ∧
          (out.verdict = .tx → ∃ ep, pushed ⟨frameVni ctx.data, ld32 ctx.data (inner + 30)⟩ = some ep ∧
            Forwarded ctx.data out.data inner ep)) ∧
        ∀ ent inner, ArpFrame conf ctx.data ent inner →
          (out.verdict = .tx ↔ (pushed ⟨frameVni ctx.data, ld32 ctx.data (inner + 38)⟩).isSome) ∧
          ∀ ep, pushed ⟨frameVni ctx.data, ld32 ctx.data (inner + 38)⟩ = some ep →
            ArpReplied ctx.data out.data inner ep := by
  obtain ⟨f, hf⟩ := Option.isSome_iff_exists.1 hf
  obtain ⟨net', hrun, hmaps⟩ := runPushes_maps fs O hmd hm hf cs hfits
  obtain ⟨hitf, heps⟩ := hmaps sgCidrMap xsksMap jmpTable
  refine ⟨net', hrun, shows_shownAt hk, ?_⟩
  dsimp only
  rw [← heps]
  generalize (net'.nodes i).maps sgCidrMap xsksMap jmpTable = maps at hitf
  have hentry : maps.ifConfigMap k = some conf := by
    rw [hitf k, hk]
    rfl
  refine ⟨hentry, fun ctx hctx => ?_⟩
  have hconf : maps.ifConfigMap ctx.ingressIfindex = some conf := by rw [hctx, hentry]
  refine ⟨fun ent inner hframe => ⟨?_, fun hv => forwarded_of_ipFrame hconf hframe hv⟩, fun ent inner hframe => ⟨?_,
    fun ep hep => arpReplied_of_arpFrame hconf hframe hep⟩⟩
  · rw [transit_ip_tx_iff hconf hframe, knownIp_iff hframe]
    rfl
  · rw [transit_arp_tx_iff hconf hframe]
    exact ⟨fun h => h.target, fun h => ⟨hframe.role, hframe.ethertype, hframe.request, h⟩⟩

theorem numEntrances_ne_zero {conf : TunnelIface} {p : Bytes} {ent : Fin tranMaxZgcEntrances} {inner : ℕ}
    (h : TunnelFrame conf p ent inner) : conf.numEntrances ≠ 0 := by
  have hfound := List.find?_some h.entrance
  rw [Bool.and_eq_true, decide_eq_true_eq] at hfound
  intro hzero
  rw [hzero] at hfound
  exact absurd hfound.1 (Nat.not_lt_zero _)

/-- Nothing leaves on an interface without entrances. -/
theorem transit_noEntrances {maps : Maps} {ctx : XdpMd}
    (h : ∀ conf, maps.ifConfigMap ctx.ingressIfindex = some conf → conf.numEntrances = 0) :
    (transit .compiled maps ctx).verdict ≠ .tx ∧ (transit .compiled maps ctx).verdict ≠ .redirect ∧
      (transit .compiled maps ctx).sgTrace = [] := by
  rw [← not_ne_iff (b := ([] : List _)), ← not_or, ← not_or]
  intro hleaves
  obtain ⟨conf, ent, inner, hconf, hframe | hframe⟩ := transit_frames hleaves
  · exact numEntrances_ne_zero hframe.toTunnelFrame (h conf hconf)
  · exact numEntrances_ne_zero hframe.toTunnelFrame (h conf hconf)

variable (net) in
/-- **Before its gateways are pushed, nothing leaves on an interface.** After any run of requests to any nodes, loads
among them, the program of a loaded node neither transmits nor redirects a frame of an interface that had no entrances
and that no request was about, and looks no frame of it up in its security groups. -/
theorem pushes_silent (hmd : (net.nodes i).daemon.md.isSome) {f : IfConfigMap} (hf : (net.nodes i).itfs = some f)
    (cs : List PushCmd) {k : U32} (hbefore : ∀ conf, f.lookup k.toNat = some conf → conf.numEntrances = 0)
    (hk : shownAt (net.nodes i).transitd (net.nodes i).stack (pushedTo net i cs) k.toNat = none)
    (sgCidrMap : Lpm.Trie SecurityGroup) (xsksMap : U32 → Bool) (jmpTable : Prog → Bool) :
    ∃ net', runPushes fs (.ofDaemon O) cs net = some net' ∧ ∀ ctx : XdpMd, ctx.ingressIfindex = k →
      let out := transit .compiled ((net'.nodes i).maps sgCidrMap xsksMap jmpTable) ctx
      out.verdict ≠ .tx ∧ out.verdict ≠ .redirect ∧ out.sgTrace = [] := by
  obtain ⟨f', hitfs, hf'⟩ := itfs_foldl hmd hf (pushedTo net i cs)
  rw [← nodes_foldl] at hitfs
  refine ⟨_, runPushes_eq fs _ cs, fun ctx hctx => ?_⟩
  refine transit_noEntrances fun conf hconf => hbefore conf ?_
  have hentry := lookup_itfs hf' k.toNat
  rw [hk] at hentry
  have hlook := congrArg (fun o : Option IfConfigMap => o.bind fun f => f.lookup k.toNat) hitfs
  rw [hctx] at hconf
  exact (hlook.trans hentry).symm.trans hconf

end Packets

/-! ## A sample run -/

/-- The gateway that the sample frames are for. -/
def frameGateway : GwAddr := ⟨dotted ![10, 0, 0, 1], macDigits ![2, 0, 10, 0, 0, 1]⟩

theorem frameGateway_denotes : Denotes ⟨networkWord ![10, 0, 0, 1], ![2, 0, 10, 0, 0, 1]⟩ frameGateway :=
  ⟨macText_macDigits _, _, rfl, rfl⟩

/-- The endpoint that the sample frames are for. -/
def frameEntry : EpRpc := ⟨7, 0xc0a80002, 0xa000003, 0x22, 0x33⟩

/-- The endpoint, a load, and the gateways of an interface. -/
def framePushes : List PushCmd :=
  [⟨nearRpc, nearRpc_addressed, .eps [frameEntry] (by decide) (by decide)⟩,
    ⟨nearRpc, nearRpc_addressed, .load "eth1".toList "eth0".toList 8300 (by decide) (by decide) (by decide) (by decide)
      (by decide)⟩,
    ⟨nearRpc, nearRpc_addressed, .droplet "eth0".toList _ [frameGateway] (by decide) (by decide)
      (.cons frameGateway_denotes .nil) (by decide)⟩]

/-- The record of the gateways. -/
def frameConf : TunnelIface := dropletItf (fun _ => ⟨0, 0, fun _ => 0⟩)
  ⟨"eth0".toList, 1, [⟨networkWord ![10, 0, 0, 1], ![2, 0, 10, 0, 0, 1]⟩]⟩ ⟨2, 8300, 0, xdpFwd⟩

theorem framePushes_shownAt (k : ℕ) :
    shownAt loadedNode.transitd loadedNode.stack (pushedTo loadedNet () framePushes) k =
      BoundedMap.lastOf [(2, [frameGateway], frameConf)] k := by
  have hentry : loadedNode.transitd.entry loadedNode.stack ⟨"eth0".toList, 1,
      [⟨networkWord ![10, 0, 0, 1], ![2, 0, 10, 0, 0, 1]⟩]⟩ = some (2, frameConf) :=
    entry_eq_some.2 ⟨_, loadedNode_itf, by decide, rfl⟩
  have hall : pushedTo loadedNet () framePushes = framePushes := rfl
  rw [shownAt, hall, framePushes, List.filterMap_cons_none rfl, List.filterMap_cons_none rfl]
  refine congrArg (fun l => BoundedMap.lastOf l k) (List.filterMap_cons_some ?_)
  exact congrArg (Option.map fun e => (e.1, [frameGateway], e.2)) hentry

theorem framePushes_ipFrame : IpFrame frameConf (sampleFrame ipprotoTcp) 0 50 where
  len := by decide
  proto := by decide
  entrance := by decide
  daddr := by decide
  ttl := by decide
  protocol := by decide
  overlay := .inl ⟨⟨by decide, rfl, by decide⟩, rfl⟩
  ethertype := by decide
  ipLen := by decide

/-- The rules of VNI 7 admit the packet in the sample frame. -/
theorem sampleFrame_admits : SgAdmits (sampleMaps (vniRules tranSgPass)) (samplePacket ipprotoTcp) :=
  (trnSgCheck_pass_iff ..).1 (by decide)

theorem pushes_forward_frame : ∃ net',
    runPushes noFiles (.ofDaemon fun _ _ => .smooth) framePushes loadedNet = some net' ∧
      let out := transit .compiled ((net'.nodes ()).maps (vniRules tranSgPass) (fun _ => false) fun _ => false)
        (sampleCtx ipprotoTcp)
      out.verdict = .tx ∧ Forwarded (sampleFrame ipprotoTcp) out.data 50 frameEntry.endpoint.val := by
  obtain ⟨net', hrun, -, -, hall⟩ := pushes_forward (i := ()) noFiles (fun _ _ => .smooth) loadedNet loadedNode_md rfl
    rfl framePushes (fitsIn_empty (by decide)) (k := 2) (framePushes_shownAt 2) (vniRules tranSgPass) (fun _ => false)
    fun _ => false
  obtain ⟨hiff, hto⟩ := (hall (sampleCtx ipprotoTcp) rfl).1 0 50 framePushes_ipFrame
  have htx := hiff.2 ⟨sampleFrame_admits, by decide⟩
  obtain ⟨e, he, hforwarded⟩ := hto htx
  obtain rfl : e = frameEntry.endpoint.val := Option.some.inj (he.symm.trans (by decide))
  exact ⟨net', hrun, htx, hforwarded⟩

theorem pushes_silent_frame : ∃ net',
    runPushes noFiles (.ofDaemon fun _ _ => .smooth) framePushes loadedNet = some net' ∧
      ∀ ctx : XdpMd, ctx.ingressIfindex = 3 →
        let out := transit .compiled ((net'.nodes ()).maps (vniRules tranSgPass) (fun _ => false) fun _ => false) ctx
        out.verdict ≠ .tx ∧ out.verdict ≠ .redirect ∧ out.sgTrace = [] :=
  pushes_silent (i := ()) noFiles (fun _ _ => .smooth) loadedNet loadedNode_md rfl framePushes (k := 3)
    (fun _ h => Option.some.inj h ▸ rfl) (framePushes_shownAt 3) (vniRules tranSgPass) (fun _ => false) fun _ => false

end ArionDp
