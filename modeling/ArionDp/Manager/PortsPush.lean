import ArionDp.Manager.LateNodes

/-!
# What requests for ports send

`all_ports` and `set_up_ports_in_the_same_vpc_from_hazelcast` on a state that also records the calls of
`update_ep`, with everything that can stop them.

* `PushState`, `portsUpdateEpsConfigSent`, `allPortsPostSent`: the handlers on this state;
* **`allPortsPostSent_world`**: the calls apart, they do what they do on the state of the manager;
* `pushCalls`, **`portsUpdateEpsConfigSent_eq`**: the calls of a push;
* `Pushed`, `LeftOver`, **`allPortsPostSent_spec`**: what a request leaves, whatever stops it;
* `SentCommitted`, **`sent_committed`**: requests that send exactly the ports that they commit.
-/

namespace ArionDp

open PyText Py Runs

/-! ## Calls of `update_ep` -/

/-- A call of `update_ep`: the node, and the chunk in the configuration. -/
abbrev UpdateEp := Text × List EpRpc

/-- The state, with the calls of `update_ep` so far. -/
structure PushState where
  world : World
  sent : List UpdateEp

/-- A handler whose calls are recorded. -/
abbrev PushReq := Py.Prog PyError PushState

/-- A handler that makes no calls. -/
def onWorld {α : Type} (c : Req α) : PushReq α :=
  fun s => ((c s.world).1, { s with world := (c s.world).2 })

section Push

variable (env : Env)

/-- `rpc.update_ep` for a node, recorded -/
def updateEp (chunk : List EpRpc) (ip : Text) : PushReq Unit := do
  onWorld (sendEps env chunk ip)
  modifyState fun s => { s with sent := s.sent ++ [(ip, chunk)] }

/-- `ports_update_eps_config`, with its calls recorded -/
def portsUpdateEpsConfigSent : PushReq Unit := portsUpdateEpsConfigOn onWorld (updateEp env)

/-- `all_ports`, a POST, with its calls recorded -/
def allPortsPostSent (F : PortFaults) (portList : List PortBody) : PushReq Unit :=
  allPortsPostOn onWorld (portsUpdateEpsConfigSent env) F portList

/-- `RoutingRule`, and the id that `uuid4` gives to its host if that is new -/
structure RoutingRule where
  id : Text
  mac : Text
  hostmac : Text
  hostip : Text
  ip : Text
  hostId : Text
  deriving DecidableEq

/-- The port of a routing rule. -/
def RoutingRule.body (vpcId : Text) (r : RoutingRule) : PortBody :=
  ⟨r.id, r.mac, vpcId, r.hostip, r.hostmac, [⟨r.ip, []⟩], r.hostId⟩

/-- `set_up_ports_in_the_same_vpc_from_hazelcast`, the same loop over routing rules -/
def setUpPortsInTheSameVpcFromHazelcast (F : PortFaults) (entryList : List RoutingRule) (vpcId : Text) :
    PushReq Unit := allPortsPostSent env F (entryList.map (RoutingRule.body vpcId))

theorem onWorld_follows {α : Type} (c : Req α) : Follows PushState.world (onWorld c) c := fun _ => rfl

theorem updateEp_follows (chunk : List EpRpc) (ip : Text) :
    Follows PushState.world (updateEp env chunk ip) (sendEps env chunk ip) := fun _ => rfl

theorem portsUpdateEpsConfigSent_follows :
    Follows PushState.world (portsUpdateEpsConfigSent env) (portsUpdateEpsConfig env) :=
  .bind (onWorld_follows _) fun _ =>
    .bind (.forEach (fun chunk => .forEach (updateEp_follows env chunk) _) _) fun _ => onWorld_follows _

/-- **The calls apart, a request does what `allPortsPost` does**, whatever stops it. -/
theorem allPortsPostSent_world (F : PortFaults) (portList : List PortBody) :
    Follows PushState.world (allPortsPostSent env F portList) (allPortsPost env F portList) :=
  .bind (onWorld_follows _) fun _ => .bind (onWorld_follows _) fun _ => .bind (onWorld_follows _) fun _ =>
    .bind (onWorld_follows _) fun _ => portsUpdateEpsConfigSent_follows env

/-- The calls of a push. -/
def pushCalls (ips : List Text) (l : List EpRpc) : List UpdateEp :=
  (pyChunks epBatchMax l).flatMap fun chunk => ips.map fun ip => (ip, chunk)

/-- The endpoints that calls send to a node. -/
def entriesFor (n : Text) (calls : List UpdateEp) : List EpRpc :=
  (calls.filter fun c => c.1 = n).flatMap fun c => c.2

/-- A loop of calls. -/
theorem forEach_calls {α : Type} (f : α → World → World) (g : α → List UpdateEp) (as : List α)
    (s : PushState) :
    (forEach (fun a => modifyState fun s => ⟨f a s.world, s.sent ++ g a⟩) as : PushReq Unit) s =
      (.ok (), ⟨as.foldl (fun w a => f a w) s.world, s.sent ++ as.flatMap g⟩) := by
  induction as generalizing s with
  | nil => exact congrArg (fun l => (Except.ok (), PushState.mk s.world l)) (List.append_nil _).symm
  | cons a as ih =>
    refine (ih ⟨f a s.world, s.sent ++ g a⟩).trans ?_
    rw [List.foldl_cons, List.flatMap_cons, List.append_assoc]

/-- A chunk to all nodes. -/
theorem forEach_updateEp (chunk : List EpRpc) (ips : List Text) : forEach (updateEp env chunk) ips =
    modifyState fun s => ⟨ips.foldl (fun w ip => (sendEps env chunk ip w).2) s.world,
      s.sent ++ ips.map fun ip => (ip, chunk)⟩ := by
  funext s
  have h := forEach_calls (fun ip w => (sendEps env chunk ip w).2) (fun ip => [(ip, chunk)]) ips s
  rwa [← List.map_eq_flatMap] at h

/-- **A push** sends all endpoints to all nodes, in chunks. -/
theorem portsUpdateEpsConfigSent_eq : portsUpdateEpsConfigSent env = modifyState fun s =>
    ⟨(portsUpdateEpsConfig env s.world).2, s.sent ++ pushCalls s.world.nodeIps.ips s.world.eps⟩ := by
  funext s
  have hloop : (forEach (fun chunk => forEach (updateEp env chunk) s.world.nodeIps.ips)
      (pyChunks epBatchMax s.world.eps) : PushReq Unit) s =
      (.ok (), ⟨(pyChunks epBatchMax s.world.eps).foldl
        (fun w chunk => s.world.nodeIps.ips.foldl (fun w ip => (sendEps env chunk ip w).2) w) s.world,
        s.sent ++ pushCalls s.world.nodeIps.ips s.world.eps⟩) := by
    simp only [forEach_updateEp]
    exact forEach_calls (fun chunk w => s.world.nodeIps.ips.foldl (fun w ip => (sendEps env chunk ip w).2) w)
      (fun chunk => s.world.nodeIps.ips.map fun ip => (ip, chunk)) _ s
  have hworld : (forEach (fun chunk => forEach (sendEps env chunk) s.world.nodeIps.ips)
      (pyChunks epBatchMax s.world.eps) : Req Unit) s.world =
      (.ok (), (pyChunks epBatchMax s.world.eps).foldl
        (fun w chunk => s.world.nodeIps.ips.foldl (fun w ip => (sendEps env chunk ip w).2) w) s.world) := by
    have hchunk : ∀ chunk, (forEach (sendEps env chunk) s.world.nodeIps.ips : Req Unit) =
        modifyState fun w => s.world.nodeIps.ips.foldl (fun w ip => (sendEps env chunk ip w).2) w :=
      fun chunk => funext fun w => forEach_modifyState _ _ w
    simp only [hchunk]
    exact forEach_modifyState _ _ _
  have hpush : portsUpdateEpsConfig env s.world = (.ok (), { ((pyChunks epBatchMax s.world.eps).foldl
      (fun w chunk => s.world.nodeIps.ips.foldl (fun w ip => (sendEps env chunk ip w).2) w) s.world) with
      eps := [] }) := by
    change Py.Prog.bind (forEach _ _) _ s.world = _
    rw [Py.Prog.bind, hworld]
    rfl
  change Py.Prog.bind (forEach _ _) _ s = _
  rw [Py.Prog.bind, hloop, modifyState_run, hpush]
  rfl

/-- The calls of a push to a node bring it all entries, in their order. -/
theorem entriesFor_pushCalls {ips : List Text} (hn : ips.Nodup) (l : List EpRpc) (n : Text) :
    entriesFor n (pushCalls ips l) = if n ∈ ips then l else [] := by
  have hchunk : ∀ chunk : List EpRpc, entriesFor n (ips.map fun ip => (ip, chunk)) =
      if n ∈ ips then chunk else [] := fun chunk => by
    induction ips with
    | nil => rfl
    | cons ip ips ih =>
      have hnd := List.nodup_cons.1 hn
      rw [entriesFor, List.map_cons, List.filter_cons]
      by_cases hip : ip = n
      · subst hip
        have hrest := ih hnd.2
        rw [if_neg hnd.1, entriesFor] at hrest
        rw [if_pos (by simp), if_pos (List.mem_cons_self ..), List.flatMap_cons, hrest, List.append_nil]
      · rw [if_neg (by simpa using hip), ← entriesFor, ih hnd.2]
        simp only [List.mem_cons, Ne.symm hip, false_or]
  have hall : entriesFor n (pushCalls ips l) =
      (pyChunks epBatchMax l).flatMap fun chunk => if n ∈ ips then chunk else [] := by
    rw [entriesFor, pushCalls, List.filter_flatMap, List.flatMap_assoc]
    exact congrArg (fun f => (pyChunks epBatchMax l).flatMap f) (funext hchunk)
  rw [hall]
  split_ifs
  · exact List.flatMap_id'.trans (pyChunks_flatten (Nat.succ_pos _) l)
  · exact List.flatMap_eq_nil_iff.2 fun _ _ => rfl

end Push

/-! ## What requests leave -/

/-- Nothing stops a request. -/
structure Unstopped (F : PortFaults) (w : World) (portList : List PortBody) : Prop where
  accepts : Accepts w portList
  reached : F.reached portList = portList
  hosts : F.hosts = false
  ports : F.ports = false
  epRows : F.epRows = false

/-- **A push**: the ports are committed, and all entries are sent. -/
def Pushed (env : Env) (s : PushState) (portList : List PortBody) (s' : PushState) : Prop :=
  ∃ es rows hosts, Entries s.world portList es ∧ RowsOf portList rows ∧
    s' = ⟨{ s.world with
        hosts := hosts
        ports := s.world.ports ++ rows
        epRows := s.world.epRows ++ portList.flatMap PortBody.epRows
        eps := []
        maps := sendTo env.num s.world.nodeIps.ips (s.world.eps ++ es) s.world.maps },
      s.sent ++ pushCalls s.world.nodeIps.ips (s.world.eps ++ es)⟩

/-- **A request that is stopped**: the entries of the ports it has been through are left over. Their rows are
there if it got as far as the last commit. -/
def LeftOver (F : PortFaults) (w : World) (portList : List PortBody) (w' : World) : Prop :=
  ∃ done todo es rows hosts, portList = done ++ todo ∧ done <+: F.reached portList ∧ Entries w done es ∧
    (rows = [] ∨ todo = [] ∧ RowsOf portList rows) ∧
    ((∃ b ∈ todo.head?, (b.epRpc w.vnis).isOk = false) ∨ F.loop = some done.length ∧ todo ≠ [] ∨
      todo = [] ∧ ¬ Unstopped F w portList) ∧
    w' = { w.queue es with hosts := hosts, ports := w.ports ++ rows }

section Spec

variable {env : Env} {F : PortFaults} {w : World} {portList : List PortBody}

theorem onWorld_spec {α : Type} {P : World → Prop} {c : Req α} {Q : α → World → Prop}
    {E : PyError → World → Prop} (h : Triple P c Q E) (l : List UpdateEp) :
    Triple (fun s => P s.world ∧ s.sent = l) (onWorld c) (fun a s => Q a s.world ∧ s.sent = l)
      fun e s => E e s.world ∧ s.sent = l := by
  rintro s ⟨hs, rfl⟩
  have hc := h s.world hs
  unfold onWorld
  revert hc
  rcases c s.world with ⟨_ | _, t⟩
  · exact fun ht => ⟨ht, rfl⟩
  · exact fun ht => ⟨ht, rfl⟩

theorem reached_prefix : F.reached portList <+: portList := by
  unfold PortFaults.reached
  cases F.loop with
  | none => exact List.prefix_rfl
  | some k => exact List.take_prefix k portList

/-- A loop that is not stopped reaches every port. -/
theorem reached_eq (h : ¬ (F.reached portList).length < portList.length) : F.reached portList = portList :=
  reached_prefix.eq_of_length (Nat.le_antisymm reached_prefix.length_le (Nat.not_lt.1 h))

theorem loop_of_reached (h : (F.reached portList).length < portList.length) :
    F.loop = some (F.reached portList).length := by
  unfold PortFaults.reached at h ⊢
  cases hl : F.loop with
  | none =>
    rw [hl] at h
    exact absurd h (lt_irrefl _)
  | some k =>
    rw [hl] at h
    dsimp only at h ⊢
    rw [List.length_take] at h ⊢
    rw [min_eq_left (by omega)]

/-- The loop does not get through its ports. -/
theorem Stopped.leftOver {w' : World} (h : Stopped w (F.reached portList) w') : LeftOver F w portList w' := by
  obtain ⟨rest, hrest⟩ : F.reached portList <+: portList := reached_prefix
  obtain ⟨done, todo, es, hosts, hsplit, he, hstop, rfl⟩ := h
  refine ⟨done, todo ++ rest, es, [], hosts, ?_, ⟨todo, hsplit.symm⟩, he, .inl rfl, ?_, ?_⟩
  · rw [← List.append_assoc, ← hsplit, hrest]
  · rcases hstop with ⟨b, hb, hnot⟩ | ⟨rfl, hnot⟩
    · obtain ⟨todo, rfl⟩ := List.head?_eq_some_iff.1 hb
      exact .inl ⟨b, rfl, hnot⟩
    · rw [List.append_nil] at hsplit
      rw [List.nil_append]
      by_cases hr : rest = []
      · subst hr
        rw [List.append_nil] at hrest
        exact .inr (.inr ⟨rfl, fun ha => hnot (hrest.symm ▸ ha.accepts)⟩)
      · refine .inr (.inl ⟨?_, hr⟩)
        rw [← hsplit]
        have hlen := congrArg List.length hrest
        have hpos := List.length_pos_iff.2 hr
        rw [List.length_append] at hlen
        exact loop_of_reached (by omega)
  · rw [List.append_nil]
    rfl

/-- **The loop**, whatever stops it. -/
theorem collectPorts_left (F : PortFaults) (portList : List PortBody) :
    Triple (fun s => s = w) (collectPorts F portList)
    (fun rows s => F.reached portList = portList ∧ ∃ es, Collected w portList es rows ∧ s = w.queue es)
    fun _ s => LeftOver F w portList s := by
  obtain ⟨rest, hrest⟩ : F.reached portList <+: portList := reached_prefix
  refine Triple.bind (collectPorts_spec.exc fun _ _ h => h.leftOver) fun rows => ?_
  refine Triple.ite (fun hlt => Triple.raise ?_) fun hge => Triple.pure ?_
  · rintro _ ⟨es, hc, rfl⟩
    refine ⟨F.reached portList, rest, es, [], w.hosts, hrest.symm, List.prefix_rfl, hc.entries, .inl rfl,
      .inr (.inl ⟨loop_of_reached hlt, ?_⟩), ?_⟩
    · rintro rfl
      have hlen := congrArg List.length hrest
      rw [List.append_nil] at hlen
      omega
    · rw [List.append_nil]
      rfl
  · rintro _ ⟨es, hc, rfl⟩
    rw [reached_eq hge] at hc
    exact ⟨reached_eq hge, es, hc, rfl⟩

section Commits

variable {es : List EpRpc} {rows : PortRows} (hc : Collected w portList es rows)
  (hall : F.reached portList = portList)

include hc hall

/-- A request that is stopped before its ports are added. -/
theorem leftOver_of_refused (hosts : List HostRow) (hna : ¬ Unstopped F w portList) :
    LeftOver F w portList { w.queue es with hosts := hosts } := by
  refine ⟨portList, [], es, [], hosts, (List.append_nil _).symm, hall.symm ▸ List.prefix_rfl, hc.entries,
    .inl rfl, .inr (.inr ⟨rfl, hna⟩), ?_⟩
  rw [List.append_nil]
  rfl

theorem commitHosts_spec : Triple (fun s => s = w.queue es) (dbCommit F.hosts (dbInsertHosts rows.hosts))
    (fun _ s => s = { w.queue es with hosts := w.hosts ++ rows.hosts })
    fun _ s => LeftOver F w portList s := by
  refine dbCommit_spec (fun _ => (dbInsertHosts_spec rows.hosts).exc ?_) fun hf _ s hs => ?_
  · rintro _ _ ⟨rfl, hn⟩
    refine leftOver_of_refused hc hall w.hosts fun ha => hn ?_
    rw [List.map_append]
    exact ha.accepts.hostIds.sublist (hc.hosts.append_left _)
  · rw [hs]
    exact leftOver_of_refused hc hall w.hosts fun ha => Bool.false_ne_true (ha.hosts.symm.trans hf)

theorem commitPorts_spec (hosts : List HostRow) : Triple (fun s => s = { w.queue es with hosts := hosts })
    (dbCommit F.ports (dbInsertPorts rows.ports))
    (fun _ s => s = { w.queue es with hosts := hosts, ports := w.ports ++ rows.ports })
    fun _ s => LeftOver F w portList s := by
  refine dbCommit_spec (fun _ => (dbInsertPorts_spec rows.ports).conseq (fun _ h => h)
    (fun _ _ h => h.1) ?_) fun hf _ s hs => ?_
  · rintro _ _ ⟨rfl, hn⟩
    refine leftOver_of_refused hc hall hosts fun ha => hn ?_
    rw [List.map_append, map_portId_of_rowsOf hc.ports]
    exact ha.accepts.portIds
  · rw [hs]
    exact leftOver_of_refused hc hall hosts fun ha => Bool.false_ne_true (ha.ports.symm.trans hf)

theorem commitEpRows_spec (hosts : List HostRow) :
    Triple (fun s => s = { w.queue es with hosts := hosts, ports := w.ports ++ rows.ports })
      (dbCommit F.epRows (modifyState fun w => { w with epRows := w.epRows ++ rows.epRows }))
      (fun _ s => s = { w.queue es with
        hosts := hosts
        ports := w.ports ++ rows.ports
        epRows := w.epRows ++ rows.epRows })
      fun _ s => LeftOver F w portList s := by
  refine dbCommit_spec (fun _ => Triple.modifyState fun s hs => by rw [hs]; rfl) fun hf _ s hs => ?_
  exact ⟨portList, [], es, rows.ports, hosts, (List.append_nil _).symm, hall.symm ▸ List.prefix_rfl,
    hc.entries, .inr ⟨rfl, hc.ports⟩,
    .inr (.inr ⟨rfl, fun ha => Bool.false_ne_true (ha.epRows.symm.trans hf)⟩), hs⟩

end Commits

/-- **A request for ports** pushes them, or leaves entries over without a push. -/
theorem allPortsPostSent_spec (s : PushState) : Triple (fun t => t = s) (allPortsPostSent env F portList)
    (fun _ t => F.reached portList = portList ∧ Pushed env s portList t)
    fun _ t => LeftOver F s.world portList t.world ∧ t.sent = s.sent := by
  refine Triple.bind ((onWorld_spec (collectPorts_left F portList) s.sent).pre
    fun t ht => ht ▸ ⟨rfl, rfl⟩) fun rows => ?_
  refine Triple.named ?_
  rintro ⟨_, sent⟩ ⟨⟨hall, es, hc, rfl⟩, rfl⟩
  refine Triple.bind ((onWorld_spec (commitHosts_spec hc hall) s.sent).pre fun t ht => ht ▸ ⟨rfl, rfl⟩)
    fun _ => Triple.bind (onWorld_spec (commitPorts_spec hc hall _) s.sent)
    fun _ => Triple.bind (onWorld_spec (commitEpRows_spec hc hall _) s.sent) fun _ => ?_
  rw [portsUpdateEpsConfigSent_eq]
  refine Triple.modifyState ?_
  rintro ⟨_, _⟩ ⟨rfl, rfl⟩
  refine ⟨hall, es, rows.ports, s.world.hosts ++ rows.hosts, hc.entries, hc.ports, ?_⟩
  rw [portsUpdateEpsConfig_eq, hc.epRows]
  rfl

end Spec

/-! ## Runs -/

/-- A request for ports, or the ports of a network from Hazelcast. -/
inductive PortsCall
  | post (F : PortFaults) (portList : List PortBody)
  | hazelcast (F : PortFaults) (entryList : List RoutingRule) (vpcId : Text)

/-- The ports of a request. -/
def PortsCall.portList : PortsCall → List PortBody
  | .post _ portList => portList
  | .hazelcast _ entryList vpcId => entryList.map (RoutingRule.body vpcId)

def PortsCall.faults : PortsCall → PortFaults
  | .post F _ => F
  | .hazelcast F _ _ => F

/-- The handler of a request. -/
def PortsCall.handle (env : Env) : PortsCall → PushReq Unit
  | .post F portList => allPortsPostSent env F portList
  | .hazelcast F entryList vpcId => setUpPortsInTheSameVpcFromHazelcast env F entryList vpcId

theorem PortsCall.handle_eq (env : Env) (c : PortsCall) :
    c.handle env = allPortsPostSent env c.faults c.portList := by
  cases c <;> rfl

/-- The state after a request, whether it returns or raises. -/
def PortsCall.run (env : Env) (c : PortsCall) (s : PushState) : PushState := (c.handle env s).2

theorem PortsCall.run_eq (env : Env) (c : PortsCall) (s : PushState) :
    c.run env s = (allPortsPostSent env c.faults c.portList s).2 := by
  rw [PortsCall.run, c.handle_eq]

/-- **Requests as steps.** -/
def portsStep (env : Env) (c : PortsCall) (s : PushState) : Option PushState := some (c.run env s)

/-- A request that queues no entry: it has no port, or it stops at its first one. -/
def QueuesNothing (F : PortFaults) (w : World) (portList : List PortBody) : Prop :=
  portList = [] ∨ F.loop = some 0 ∨ ∃ b ∈ portList.head?, (b.epRpc w.vnis).isOk = false

/-- **A clean request**: it is accepted as a whole, or it queues nothing. -/
def PortsCall.Clean (c : PortsCall) (s : PushState) : Prop :=
  Unstopped c.faults s.world c.portList ∨ QueuesNothing c.faults s.world c.portList

/-- **What is sent is what is committed**: a request has added the rows of some of its ports, and each node
is sent exactly the entries of these ports. -/
def SentCommitted (portList : List PortBody) (s s' : PushState) : Prop :=
  ∃ committed rows es calls, committed.Sublist portList ∧ RowsOf committed rows ∧
    s'.world.ports = s.world.ports ++ rows ∧ Entries s.world committed es ∧ s'.sent = s.sent ++ calls ∧
    ∀ n, entriesFor n calls = if n ∈ s.world.nodeIps.ips then es else []

section Runs

variable {env : Env} {s s' : PushState} {F : PortFaults} {portList : List PortBody}

theorem Pushed.sentCommitted (h : Pushed env s portList s') (hs : s.world.eps = []) :
    SentCommitted portList s s' ∧ s'.world.eps = [] := by
  obtain ⟨es, rows, hosts, he, hr, rfl⟩ := h
  refine ⟨⟨portList, rows, es, _, List.Sublist.refl _, hr, rfl, he, rfl, fun n => ?_⟩, rfl⟩
  rw [hs, List.nil_append]
  exact entriesFor_pushCalls s.world.nodeIps.nodup es n

/-- What an accepted request would leave over. -/
theorem Unstopped.not_leftOver {w w' : World} (ha : Unstopped F w portList) : ¬ LeftOver F w portList w' := by
  rintro ⟨done, todo, es, rows, hosts, hsplit, -, -, -, hstop, -⟩
  rcases hstop with ⟨b, hb, hnot⟩ | ⟨hloop, htodo⟩ | ⟨-, hna⟩
  · have hmem : b ∈ portList := by
      rw [hsplit]
      exact List.mem_append_right _ (List.mem_of_mem_head? hb)
    rw [ha.accepts.readable b hmem] at hnot
    cases hnot
  · have hlen := congrArg List.length ha.reached
    rw [PortFaults.reached, hloop] at hlen
    dsimp only at hlen
    have hpos := List.length_pos_iff.2 htodo
    rw [hsplit, List.length_take, List.length_append] at hlen
    omega
  · exact hna ha

/-- A request that queues nothing leaves no rows and no entries. -/
theorem LeftOver.of_queuesNothing {w w' : World} (h : LeftOver F w portList w')
    (hq : QueuesNothing F w portList) : w'.ports = w.ports ∧ w'.eps = w.eps := by
  obtain ⟨done, todo, es, rows, hosts, hsplit, hdone, he, hrows, -, rfl⟩ := h
  have hnil : done = [] := by
    rcases hq with rfl | hloop | ⟨b, hb, hnot⟩
    · exact (List.append_eq_nil_iff.1 hsplit.symm).1
    · have hreached : F.reached portList = [] := by
        rw [PortFaults.reached, hloop]
        rfl
      rw [hreached] at hdone
      exact List.prefix_nil.1 hdone
    · cases hd : done with
      | nil => rfl
      | cons b' done' =>
        rw [hd] at hsplit he
        rw [hsplit] at hb
        obtain rfl := Option.some.inj hb
        cases he with
        | cons hok _ =>
          rw [hok] at hnot
          cases hnot
  subst hnil
  cases he
  have hrows' : rows = [] := by
    rcases hrows with h | ⟨rfl, hr⟩
    · exact h
    · rw [hsplit] at hr
      cases hr
      rfl
  rw [hrows']
  exact ⟨List.append_nil _, List.append_nil _⟩

/-- **Step lemma.** -/
theorem PortsCall.Clean.sentCommitted {c : PortsCall} (hc : c.Clean s) (hs : s.world.eps = []) :
    SentCommitted c.portList s (c.run env s) ∧ (c.run env s).world.eps = [] := by
  rw [c.run_eq]
  refine Triple.final (I := fun t => SentCommitted c.portList s t ∧ t.world.eps = [])
    (allPortsPostSent_spec s |>.conseq (fun _ h => h) (fun _ t h => h.2.sentCommitted hs) ?_) rfl
  rintro _ t ⟨hleft, hsent⟩
  rcases hc with ha | hq
  · exact absurd hleft ha.not_leftOver
  · obtain ⟨hports, heps⟩ := hleft.of_queuesNothing hq
    refine ⟨⟨[], [], [], [], List.nil_sublist _, .nil, ?_, .nil, ?_, fun n => (ite_self _).symm⟩,
      heps.trans hs⟩
    · rw [hports, List.append_nil]
    · rw [hsent, List.append_nil]

end Runs

/-- **Only committed ports reach the nodes**, in every request of a run of clean requests. -/
theorem sent_committed (env : Env) {calls : List PortsCall} {s : PushState} (hs : s.world.eps = [])
    (hclean : EachStep (portsStep env) PortsCall.Clean calls s) {n : ℕ} {t : PushState} {c : PortsCall}
    (ht : run (portsStep env) (calls.take n) s = some t) (hc : calls[n]? = some c) :
    SentCommitted c.portList t (c.run env t) := by
  have heps : t.world.eps = [] := by
    refine run_inv (I := fun t => t.world.eps = []) (fun a s t hs ha hst => ?_) ht (hclean.take n) hs
    obtain rfl := Option.some.inj hst
    exact (ha.sentCommitted hs).2
  exact ((hclean.get ht hc).sentCommitted heps).1

/-! ## Samples -/

/-- A node, and the network with VNI 888. -/
def pushStart : PushState :=
  ⟨[sampleJoin "a" "172.16.0.1", sampleNetwork].foldl (fun w r => r.run .default sampleColumn w) sampleManager, []⟩

/-- A request that the database does not answer, and a good one. -/
def failThenGood : List PortsCall :=
  [.post ⟨some 0, false, false, false⟩ [samplePort "p" "10.10.0.92"],
    .post .none [samplePort "q" "10.10.0.93"]]

/-- The good request sends its port. -/
theorem sent_committed_sample : SentCommitted [samplePort "q" "10.10.0.93"]
    (failThenGood[0].run .default pushStart)
    (failThenGood[1].run .default (failThenGood[0].run .default pushStart)) := by
  have hclean : EachStep (portsStep .default) PortsCall.Clean failThenGood pushStart := by
    refine ⟨.inr (.inr (.inl rfl)), fun t ht => ⟨.inl ?_, fun _ _ => trivial⟩⟩
    obtain rfl := Option.some.inj ht
    refine ⟨⟨?_, ?_, ?_⟩, rfl, rfl, rfl, rfl⟩ <;> decide +kernel
  exact sent_committed .default (by decide +kernel) hclean (n := 1) rfl rfl

/-- A request that stops at its second port, which is of an unknown network, and a good one. -/
def stopThenGood : List PortsCall :=
  [.post .none [samplePort "q" "10.10.0.93", { samplePort "r" "10.10.0.94" with vpcId := "u".toList }],
    .post .none [samplePort "s" "10.10.0.95"]]

/-- **A port of a failed request is sent with the next one**, which commits one port and sends two. -/
theorem failed_request_sent_later : pushStart.world.eps = [] ∧
    ∃ t, run (portsStep .default) (stopThenGood.take 1) pushStart = some t ∧ t.world.ports = [] ∧
      ¬ SentCommitted [samplePort "s" "10.10.0.95"] t (stopThenGood[1].run .default t) := by
  refine ⟨by decide +kernel, stopThenGood[0].run .default pushStart, rfl, by decide +kernel, ?_⟩
  rintro ⟨committed, rows, es, calls, -, hrows, hports, hes, hsent, hn⟩
  have hrows1 : rows.length = 1 := by
    have h := congrArg List.length hports
    rw [List.length_append] at h
    have h1 : (stopThenGood[1].run .default
        (stopThenGood[0].run .default pushStart)).world.ports.length = 1 := by decide +kernel
    have h0 : (stopThenGood[0].run .default pushStart).world.ports.length = 0 := by decide +kernel
    omega
  have hes1 : es.length = 1 := hes.length_eq.symm.trans (hrows.length_eq.trans hrows1)
  have hsent0 : (stopThenGood[0].run .default pushStart).sent = [] := by decide +kernel
  rw [hsent0, List.nil_append] at hsent
  have hnode := hn "172.16.0.1".toList
  rw [if_pos (by decide +kernel)] at hnode
  have htwo : (entriesFor "172.16.0.1".toList
      (stopThenGood[1].run .default (stopThenGood[0].run .default pushStart)).sent).length = 2 := by
    decide +kernel
  rw [hsent, hnode] at htwo
  omega

end ArionDp
