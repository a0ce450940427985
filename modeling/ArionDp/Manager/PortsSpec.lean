import ArionDp.Manager.Ports
import ArionDp.Manager.NodesSpec

/-!
# What requests do to ports and endpoints

* `sendTo`, **`portsUpdateEpsConfig_eq`**: every node gets all endpoints in their order;
* **`allPortsPost_cases`**: new ports are committed and sent, or the request stops with endpoints left
  over in `eps`;
* `allVpcsPost_cases`, `allNodesPost_cases`, `singlePortPut_cases`, `singlePortDelete_cases`: the
  other requests;
* `Effect`, **`Request.run_effect`**: everything that a request can do.
-/

namespace ArionDp

open PyText Py

/-! ## Sending endpoints -/

/-- The maps after endpoints are sent to nodes. -/
def sendTo (num : JsonNumber) (ips : List Text) (l : List EpRpc) (maps : Text → Option EndpointsMap) :
    Text → Option EndpointsMap :=
  fun n => if n ∈ ips then (maps n).map fun m => updateEndpoints m (l.map (EpRpc.trnEp num))
    else maps n

section Send

variable (env : Env) (maps : Text → Option EndpointsMap)

theorem sendTo_nil (num : JsonNumber) (ips : List Text) : sendTo num ips [] maps = maps := by
  funext n
  unfold sendTo
  split_ifs
  · exact Option.map_id'
  · rfl

theorem sendTo_append (num : JsonNumber) (ips : List Text) (l l' : List EpRpc) :
    sendTo num ips (l ++ l') maps = sendTo num ips l' (sendTo num ips l maps) := by
  funext n
  unfold sendTo
  split_ifs
  · rw [Option.map_map]
    refine congrArg (fun f => (maps n).map f) (funext fun m => ?_)
    rw [List.map_append, updateEndpoints_append]
    rfl
  · rfl

/-- One chunk, to one node after the other. -/
theorem forEach_sendEps {chunk : List EpRpc} (hl : chunk.length ≤ epBatchMax) {ips : List Text}
    (hn : ips.Nodup) (w : World) : forEach (sendEps env chunk) ips w =
      (.ok (), { w with maps := sendTo env.num ips chunk w.maps }) := by
  refine (forEach_modifyState _ ips w).trans (congrArg (Prod.mk (Except.ok ())) ?_)
  induction ips generalizing w with
  | nil => rfl
  | cons ip ips ih =>
    rw [List.foldl_cons, ih (List.nodup_cons.1 hn).2]
    refine congrArg (fun maps => { w with maps := maps }) (funext fun n => ?_)
    unfold sendTo
    by_cases hnip : n = ip
    · subst hnip
      rw [if_neg (List.nodup_cons.1 hn).1, if_pos (List.mem_cons_self ..)]
      dsimp only
      rw [if_pos rfl]
      exact trnRpcUpdateEp_eq env.num chunk hl _
    · simp only [List.mem_cons, hnip, false_or, if_false]

theorem forEach_chunks {ips : List Text} (hn : ips.Nodup) (chunks : List (List EpRpc))
    (hl : ∀ c ∈ chunks, c.length ≤ epBatchMax) (w : World) :
    forEach (fun chunk => forEach (sendEps env chunk) ips) chunks w =
      (.ok (), { w with maps := sendTo env.num ips chunks.flatten w.maps }) := by
  induction chunks generalizing w with
  | nil =>
    rw [List.flatten_nil, sendTo_nil]
    rfl
  | cons c chunks ih =>
    have hc := forEach_sendEps env (hl c (List.mem_cons_self ..)) hn w
    change Prog.bind _ _ w = _
    rw [Prog.bind, hc]
    dsimp only
    rw [ih fun c' hc' => hl c' (List.mem_cons_of_mem _ hc'), List.flatten_cons, sendTo_append]

/-- **Every node gets all endpoints**, in their order, and none are left. -/
theorem portsUpdateEpsConfig_eq : portsUpdateEpsConfig env = modifyState fun w =>
    { w with eps := [], maps := sendTo env.num w.nodeIps.ips w.eps w.maps } := by
  funext w
  have h := forEach_chunks env w.nodeIps.nodup (pyChunks epBatchMax w.eps)
    (fun c hc => length_le_of_mem_pyChunks hc) w
  rw [pyChunks_flatten (Nat.succ_pos _)] at h
  change Prog.bind (forEach _ _) _ w = _
  rw [Prog.bind, h]
  rfl

end Send

/-! ## New ports -/

/-- The state with entries appended to `eps`. -/
def World.queue (w : World) (es : List EpRpc) : World := { w with eps := w.eps ++ es }

/-- The entries of new ports. -/
def Entries (w : World) (portList : List PortBody) (es : List EpRpc) : Prop :=
  List.Forall₂ (fun b e => b.epRpc w.vnis = .ok e) portList es

/-- Rows of new ports. -/
def RowsOf (portList : List PortBody) (ports : List PortRow) : Prop :=
  List.Forall₂ (fun b r => r.portId = b.portId ∧ r.macPort = b.macPort ∧ r.vpcId = b.vpcId)
    portList ports

/-- Nothing stops a request for new ports: every entry can be built, and all ids are new. -/
structure Accepts (w : World) (portList : List PortBody) : Prop where
  readable : ∀ b ∈ portList, (b.epRpc w.vnis).isOk
  portIds : (w.ports.map (fun r => r.portId) ++ portList.map fun b => b.portId).Nodup
  hostIds : (w.hosts.map (fun r => r.hostId) ++ portList.map fun b => b.hostId).Nodup

/-- **A committed request**: the ports are in the database and their endpoints on the nodes, with what
was left over before. -/
def Committed (env : Env) (w : World) (portList : List PortBody) (w' : World) : Prop :=
  ∃ es ports hosts, Entries w portList es ∧ RowsOf portList ports ∧
    ((w.ports ++ ports).map fun r => r.portId).Nodup ∧
    w' = { w with
      hosts := hosts
      ports := w.ports ++ ports
      epRows := w.epRows ++ portList.flatMap PortBody.epRows
      eps := []
      maps := sendTo env.num w.nodeIps.ips (w.eps ++ es) w.maps }

/-- **A stopped request**: the entries of the ports it has been through are left over. -/
def Stopped (w : World) (portList : List PortBody) (w' : World) : Prop :=
  ∃ done todo es hosts, portList = done ++ todo ∧ Entries w done es ∧
    ((∃ b ∈ todo.head?, (b.epRpc w.vnis).isOk = false) ∨ todo = [] ∧ ¬ Accepts w portList) ∧
    w' = { w.queue es with hosts := hosts }

section Ports

variable {env : Env} {w : World} {portList : List PortBody}

theorem collectPort_error (rows : PortRows) {b : PortBody} {e : PyError}
    (h : b.epRpc w.vnis = .error e) : collectPort rows b w = (.error e, w) := by
  change Prog.bind (ofExcept (b.epRpc w.vnis)) _ w = _
  rw [h]
  rfl

theorem collectPort_ok (rows : PortRows) {b : PortBody} {e : EpRpc} (h : b.epRpc w.vnis = .ok e) :
    collectPort rows b w =
      (.ok (rows.collect b (findHost w.hosts rows.hosts rows.lookup b)), { w with eps := w.eps ++ [e] }) := by
  change Prog.bind (ofExcept (b.epRpc w.vnis)) _ w = _
  rw [h]
  rfl

/-- At most one host is added for a port. -/
theorem sublist_findHost (hosts hostsToAdd : List HostRow) (lookup : Finset Text) (b : PortBody) :
    ((findHost hosts hostsToAdd lookup b).2.1.map fun h => h.hostId).Sublist
      ((hostsToAdd.map fun h => h.hostId) ++ [b.hostId]) := by
  unfold findHost
  cases hosts.find? fun h => h.ipNode = b.ipNode with
  | some host => exact List.sublist_append_left _ _
  | none =>
    dsimp only
    split_ifs
    · exact List.sublist_append_left _ _
    · rw [List.map_append]
      exact List.Sublist.refl _

/-- What the loop has collected from some ports. -/
structure Collected (w : World) (done : List PortBody) (es : List EpRpc) (rows : PortRows) : Prop where
  entries : Entries w done es
  ports : RowsOf done rows.ports
  epRows : rows.epRows = done.flatMap PortBody.epRows
  hosts : (rows.hosts.map fun h => h.hostId).Sublist (done.map fun b => b.hostId)

theorem Collected.concat {done : List PortBody} {es : List EpRpc} {rows : PortRows}
    (h : Collected w done es rows) {b : PortBody} {e : EpRpc} (he : b.epRpc w.vnis = .ok e) :
    Collected w (done ++ [b]) (es ++ [e])
      (rows.collect b (findHost w.hosts rows.hosts rows.lookup b)) where
  entries := List.rel_append h.entries (.cons he .nil)
  ports := List.rel_append h.ports (.cons ⟨rfl, rfl, rfl⟩ .nil)
  epRows := by rw [PortRows.collect, h.epRows, List.flatMap_append, List.flatMap_singleton]
  hosts := by
    rw [List.map_append]
    exact (sublist_findHost _ _ _ _).trans (h.hosts.append_right _)

/-- **The loop of `all_ports`.** -/
theorem collectPorts_spec : Triple (fun s => s = w) (portList.foldlM collectPort .empty)
    (fun rows s => ∃ es, Collected w portList es rows ∧ s = w.queue es)
    fun _ s => Stopped w portList s := by
  refine (Triple.foldlM (fun done todo rows s => done ++ todo = portList ∧
    ∃ es, Collected w done es rows ∧ s = w.queue es) ?_ [] portList _).conseq
    ?_ (fun _ _ h => h.2) fun _ _ h => h
  · rintro done b todo rows _ ⟨rfl, es, hc, rfl⟩
    cases hb : b.epRpc w.vnis with
    | error e =>
      rw [collectPort_error (w := w.queue es) rows hb]
      exact ⟨done, b :: todo, es, w.hosts, rfl, hc.entries, .inl ⟨b, rfl, by rw [hb]; rfl⟩, rfl⟩
    | ok e =>
      rw [collectPort_ok (w := w.queue es) rows hb]
      refine ⟨?_, es ++ [e], hc.concat hb, ?_⟩
      · rw [List.append_assoc]
        rfl
      · exact congrArg (fun l => { w with eps := l }) (List.append_assoc ..)
  · intro s hs
    refine ⟨rfl, [], ⟨.nil, .nil, rfl, List.Sublist.refl _⟩, hs.trans ?_⟩
    exact congrArg (fun l => { w with eps := l }) (List.append_nil _).symm

theorem map_portId_of_rowsOf {ports : List PortRow} (h : RowsOf portList ports) :
    ports.map (fun r => r.portId) = portList.map fun b => b.portId := by
  induction h with
  | nil => rfl
  | cons hb _ ih => rw [List.map_cons, List.map_cons, ih, hb.1]

theorem dbInsertHosts_spec (rows : List HostRow) : Triple (fun s => s = w) (dbInsertHosts rows)
    (fun _ s => s = { w with hosts := w.hosts ++ rows })
    fun _ s => s = w ∧ ¬ ((w.hosts ++ rows).map fun r => r.hostId).Nodup := by
  refine Triple.bind Triple.getState fun w' => Triple.ite (fun _ => ?_) fun hn => ?_
  · exact Triple.modifyState fun _ h => by rw [h.2]
  · refine Triple.raise ?_
    rintro _ ⟨rfl, rfl⟩
    exact ⟨rfl, hn⟩

theorem dbInsertPorts_spec (rows : List PortRow) : Triple (fun s => s = w) (dbInsertPorts rows)
    (fun _ s => s = { w with ports := w.ports ++ rows } ∧
      ((w.ports ++ rows).map fun r => r.portId).Nodup)
    fun _ s => s = w ∧ ¬ ((w.ports ++ rows).map fun r => r.portId).Nodup := by
  refine Triple.bind Triple.getState fun w' => Triple.ite (fun hn => ?_) fun hn => ?_
  · refine Triple.modifyState ?_
    rintro _ ⟨rfl, rfl⟩
    exact ⟨rfl, hn⟩
  · refine Triple.raise ?_
    rintro _ ⟨rfl, rfl⟩
    exact ⟨rfl, hn⟩

/-- Nothing stops the loop but the values in the request. -/
theorem collectPorts_none (portList : List PortBody) :
    collectPorts .none portList = portList.foldlM collectPort .empty := by
  funext w
  change Py.Prog.bind (portList.foldlM collectPort .empty) _ w = _
  unfold Py.Prog.bind
  rcases (portList.foldlM collectPort .empty : Req PortRows) w with ⟨_ | rows, t⟩
  · rfl
  · exact congrFun (if_neg (lt_irrefl _)) t

/-- **A request for new ports** is committed or stopped. -/
theorem allPortsPost_spec : Triple (fun s => s = w) (allPortsPost env .none portList)
    (fun _ s => Committed env w portList s) fun _ s => Stopped w portList s := by
  rw [allPortsPost, allPortsPostOn, id_eq, collectPorts_none]
  refine Triple.bind collectPorts_spec fun rows => ?_
  rintro _ ⟨es, hc, rfl⟩
  have hstop : ∀ hosts, ¬ Accepts w portList →
      Stopped w portList { w.queue es with hosts := hosts } := fun hosts hna =>
    ⟨portList, [], es, hosts, (List.append_nil _).symm, hc.entries, .inr ⟨rfl, hna⟩, rfl⟩
  have hrest : Triple (fun s => s = w.queue es) (do
      dbInsertHosts rows.hosts
      dbInsertPorts rows.ports
      modifyState fun w => { w with epRows := w.epRows ++ rows.epRows }
      portsUpdateEpsConfig env) (fun _ s => Committed env w portList s)
      fun _ s => Stopped w portList s := by
    refine Triple.bind ((dbInsertHosts_spec rows.hosts).exc ?_)
      fun _ => Triple.bind ((dbInsertPorts_spec rows.ports).exc ?_)
      fun _ => ?_
    · rintro _ _ ⟨rfl, hn⟩
      refine hstop w.hosts fun ha => hn ?_
      rw [List.map_append]
      exact ha.hostIds.sublist (hc.hosts.append_left _)
    · rintro _ _ ⟨rfl, hn⟩
      refine hstop (w.hosts ++ rows.hosts) fun ha => hn ?_
      rw [List.map_append, map_portId_of_rowsOf hc.ports]
      exact ha.portIds
    · refine Triple.assume (fun _ h => h.2) fun hn => Triple.bind (Q := fun _ s => s = { w.queue es with
        hosts := w.hosts ++ rows.hosts
        ports := w.ports ++ rows.ports
        epRows := w.epRows ++ rows.epRows }) (Triple.modifyState ?_) fun _ => ?_
      · rintro _ ⟨rfl, -⟩
        rfl
      · rw [portsUpdateEpsConfig_eq]
        refine Triple.modifyState ?_
        rintro _ rfl
        exact ⟨es, rows.ports, _, hc.entries, hc.ports, hn, by rw [hc.epRows]; rfl⟩
  exact hrest _ rfl

theorem allPortsPost_cases (env : Env) (w : World) (portList : List PortBody) :
    Committed env w portList (allPortsPost env .none portList w).2 ∨
      Stopped w portList (allPortsPost env .none portList w).2 :=
  Triple.final (I := fun s => Committed env w portList s ∨ Stopped w portList s)
    (allPortsPost_spec.conseq (fun _ h => h) (fun _ _ h => .inl h) fun _ _ h => .inr h) rfl

end Ports

/-! ## New networks -/

section Vpcs

variable {env : Env} {w : World}

/-- The state with a new network. -/
def World.withNetwork (w : World) (zgcId : Text) (b : NewVpc) (n : ℤ) : World :=
  { w with
    vpcs := w.vpcs ++ [⟨zgcId, b.vpcId, .int n⟩]
    vnis := fun v => if v = b.vpcId then some b.vni.cached else w.vnis v }

/-- The database takes a new network, if it takes its VNI. -/
structure NewNetwork (refused : Bool) (w : World) (vpcId : Text) : Prop where
  accepted : refused = false
  zgc : w.activeZgc.isSome
  new : ∀ r ∈ w.vpcs, r.vpcId ≠ vpcId

/-- The column and Python agree on integers and texts, and on other numbers that are not rounded. -/
theorem IntegerColumn.agrees (col : IntegerColumn) {v : VniValue} {n m : ℤ} (hm : col.stored v = some m)
    (hfloat : ∀ x m, v = .float x → col.stored (.float x) = some m → x.num.tdiv x.den = m)
    (hn : PyScalar.toInt (some v.cached) = .ok n) : n = m := by
  rcases v with (k | s) | x
  · cases hn
    exact col.int _ _ hm
  · exact col.str _ _ _ hm hn
  · cases hn
    exact hfloat x m rfl hm

theorem dbCommit_spec {P : World → Prop} {refused : Bool} {c : Req Unit} {Q : Unit → World → Prop}
    {E : PyError → World → Prop} (h : refused = false → Triple P c Q E)
    (hE : refused = true → ∀ e w, P w → E e w) : Triple P (dbCommit refused c) Q E := by
  cases refused with
  | false => exact h rfl
  | true => exact Triple.raise (hE rfl _)
theorem extendVpcResp_keeps (I : World → Prop) : Keeps I (extendVpcResp env) := by
  refine Triple.bind Triple.getState fun w => ?_
  cases w.activeZgc with
  | none => exact Triple.raise fun _ h => h.2
  | some z => exact Triple.bind_ofExcept (fun _ _ _ h => h.2) fun _ _ _ h => h.2

theorem dbAddVpc_spec (row : VpcRow) : Triple (fun s => s = w) (dbAddVpc row)
    (fun _ s => (∀ r ∈ w.vpcs, r.vpcId ≠ row.vpcId) ∧ s = { w with vpcs := w.vpcs ++ [row] })
    fun _ s => s = w := by
  refine Triple.bind Triple.getState fun _ => Triple.ite (fun _ => ?_) fun hn => ?_
  · exact Triple.raise fun _ h => h.2
  · refine Triple.modifyState ?_
    rintro _ ⟨rfl, rfl⟩
    exact ⟨fun r hr he => hn ⟨r, hr, he⟩, rfl⟩

/-- **A request for a network** adds it, or changes nothing. -/
theorem allVpcsPost_cases (env : Env) (col : IntegerColumn) (refused : Bool) (w : World) (b : NewVpc) :
    (allVpcsPost env col refused b w).2 = w ∨
    NewNetwork refused w b.vpcId ∧ ∃ zgcId n, col.stored b.vni = some n ∧
      (allVpcsPost env col refused b w).2 = w.withNetwork zgcId b n := by
  refine Triple.final (P := fun s => s = w) (I := fun s => s = w ∨ NewNetwork refused w b.vpcId ∧
    ∃ zgcId n, col.stored b.vni = some n ∧ s = w.withNetwork zgcId b n) ?_ rfl
  refine Triple.bind Triple.getState fun w' => ?_
  cases hz : w'.activeZgc with
  | none => exact Triple.raise fun _ h => .inl h.2
  | some z =>
    cases hn : col.stored b.vni with
    | none => exact Triple.raise fun _ h => .inl h.2
    | some n =>
      refine Triple.bind (Q := fun _ s => NewNetwork refused w b.vpcId ∧
        s = { w with vpcs := w.vpcs ++ [⟨z.zgcId, b.vpcId, .int n⟩] }) ?_ fun _ => ?_
      · refine dbCommit_spec (fun hr => Triple.named ?_) fun _ _ _ h => .inl h.2
        rintro _ ⟨rfl, rfl⟩
        exact (dbAddVpc_spec _).conseq (fun _ h => h) (fun _ _ h => ⟨⟨hr, by rw [hz]; rfl, h.1⟩, h.2⟩)
          fun _ _ h => .inl h
      · refine Triple.bind (Triple.modifyState ?_) fun _ => extendVpcResp_keeps _
        rintro _ ⟨hnew, rfl⟩
        exact .inr ⟨hnew, z.zgcId, n, rfl, rfl⟩

end Vpcs

/-! ## Single ports -/

section Single

variable (w : World) (portId : Text)

/-- The state with another MAC address for a port. -/
def World.withMac (macPort : Text) : World :=
  { w with ports := w.ports.map fun r => if r.portId = portId then { r with macPort := macPort } else r }

/-- The state without a port and its addresses. -/
def World.withoutPort : World :=
  { w with
    epRows := w.epRows.filter fun e => e.portId ≠ portId
    ports := w.ports.filter fun r => r.portId ≠ portId }

theorem singlePortPut_cases (macPort : Text) : (singlePortPut portId macPort w).2 = w ∨
    (singlePortPut portId macPort w).2 = w.withMac portId macPort := by
  refine Triple.final (P := fun s => s = w) (I := fun s => s = w ∨ s = w.withMac portId macPort)
    (Triple.bind Triple.getState fun w' => Triple.ite (fun _ => ?_) fun _ => ?_) rfl
  · exact Triple.modifyState fun _ h => .inr (h.2 ▸ rfl)
  · exact Triple.raise fun _ h => .inl h.2

theorem singlePortDelete_cases : (singlePortDelete portId w).2 = w ∨
    (singlePortDelete portId w).2 = w.withoutPort portId := by
  refine Triple.final (P := fun s => s = w) (I := fun s => s = w ∨ s = w.withoutPort portId)
    (Triple.bind Triple.getState fun w' => Triple.ite (fun _ => ?_) fun _ => ?_) rfl
  · refine Triple.bind (Q := fun _ s => s = { w with
      epRows := w.epRows.filter fun e => e.portId ≠ portId }) (Triple.modifyState ?_) fun _ => ?_
    · rintro _ ⟨-, rfl⟩
      rfl
    · exact Triple.modifyState fun _ h => .inr (h ▸ rfl)
  · exact Triple.raise fun _ h => .inl h.2

end Single

/-! ## New nodes -/

/-- What ports, networks and the nodes' maps depend on. -/
structure PortView where
  vpcs : List VpcRow
  ports : List PortRow
  epRows : List EpRow
  activeZgc : Option ActiveZgc
  nodeIps : NodeIps
  vnis : Text → Option PyScalar
  eps : List EpRpc
  maps : Text → Option EndpointsMap

def World.portView (w : World) : PortView :=
  ⟨w.vpcs, w.ports, w.epRows, w.activeZgc, w.nodeIps, w.vnis, w.eps, w.maps⟩

section Nodes

variable {env : Env} {V : PortView}

/-- The droplets and the nodes' rows are not part of the view. -/
theorem logApiException_keeps {I : World → Prop} {c : Req Unit} (hc : Keeps I c) :
    Keeps I (logApiException c) := by
  refine Keeps.tryExcept hc fun e d hd => ?_
  split_ifs at hd
  · obtain rfl := Option.some.inj hd
    exact Keeps.pure ()
  · cases hd

theorem kubeWrite_view (name : Text) (write : Kube → Option Kube) :
    Keeps (fun w => w.portView = V) (kubeWrite env name write) := by
  refine Keeps.bind Keeps.getState fun w => ?_
  split_ifs
  · exact Keeps.raise _
  · split
    · exact Keeps.modifyState fun _ h => h
    · exact Keeps.raise _

theorem dropletUpdateItfConfig_view (nodeIp : Text) (spec : DropletSpec) :
    Keeps (fun w => w.portView = V) (dropletUpdateItfConfig nodeIp spec) :=
  Keeps.bind (Keeps.ofExcept _) fun _ => Keeps.modifyState fun _ h => h

theorem setGws_view (nodeId : Text) (gws : List GwAddr) :
    Keeps (fun w => w.portView = V) (setGws nodeId gws) := Keeps.modifyState fun _ h => h

theorem updateDroplet_view (d : Item) : Keeps (fun w => w.portView = V) (updateDroplet env d) :=
  logApiException_keeps (Keeps.bind (kubeWrite_view _ _) fun _ => dropletUpdateItfConfig_view _ _)

theorem createDroplet_view (name : Text) (ip mac : List Text) (itf nodeIp network zgcId : Text) :
    Keeps (fun w => w.portView = V) (createDroplet env name ip mac itf nodeIp network zgcId) :=
  logApiException_keeps (Keeps.bind (kubeWrite_view _ _) fun _ => dropletUpdateItfConfig_view _ _)

theorem updateNodeAndDroplet_view (d : Item) :
    Keeps (fun w => w.portView = V) (updateNodeAndDroplet env d) := by
  refine Keeps.bind (Keeps.bind Keeps.getState fun w => ?_) fun _ => updateDroplet_view d
  cases w.nodes.find? fun r => r.ipControl = d.body.nodeIp with
  | none => exact Keeps.raise _
  | some r =>
    exact Keeps.bind (setGws_view _ _) fun _ => Keeps.bind (Keeps.ofExcept _) fun _ => setGws_view _ _

theorem newNodeGws_view (zgcId : Text) (d : NodePost) :
    Keeps (fun w => w.portView = V) (newNodeGws env zgcId d) := by
  refine Keeps.bind (Keeps.bind Keeps.getState fun _ => Keeps.pure _) fun all =>
    Keeps.bind (readKey_keeps _ _) fun ipControl => Keeps.bind (Keeps.ofExcept _) fun _ =>
    Keeps.bind (readMacZgc_keeps _ d) fun _ => ?_
  split_ifs
  · refine Keeps.bind (Keeps.ofExcept _) fun p => ?_
    cases p with
    | none => exact Keeps.pure _
    | some p =>
      exact Keeps.bind (Keeps.forEach updateNodeAndDroplet_view _) fun _ =>
        Keeps.bind (readName_keeps _ d) fun _ => Keeps.bind (readKey_keeps _ _) fun _ =>
        Keeps.bind (createDroplet_view _ _ _ _ _ _ _) fun _ =>
        Keeps.bind (Keeps.ofExcept _) fun _ => Keeps.bind (appendGws_keeps _ _ _) fun _ => Keeps.pure _
  · refine Keeps.bind Keeps.getState fun w => ?_
    cases w.zgcs.find? fun r => r.zgcId = zgcId with
    | none => exact Keeps.pure _
    | some zgc =>
      exact Keeps.bind (Keeps.ofExcept _) fun _ => Keeps.bind (appendGws_keeps _ _ _) fun _ =>
        Keeps.bind (readName_keeps _ d) fun _ => Keeps.bind (readKey_keeps _ _) fun _ =>
        Keeps.bind (createDroplet_view _ _ _ _ _ _ _) fun _ => Keeps.pure _

theorem addNode_view (zgcId nodeId : Text) (d : NodePost) :
    Keeps (fun w => w.portView = V) (addNode env zgcId nodeId d) := by
  refine Keeps.bind (newNodeGws_view zgcId d) fun gws => ?_
  cases gws with
  | none => exact Keeps.pure _
  | some gws =>
    refine Keeps.bind (newNode_keeps _ d zgcId nodeId gws) fun row =>
      Keeps.bind (Keeps.bind Keeps.getState fun w => ?_) fun _ => Keeps.pure _
    split_ifs
    · exact Keeps.raise _
    · exact Keeps.modifyState fun _ h => h

/-- The ZGC's port number can be sent to a node. -/
def World.HasPort (w : World) : Prop :=
  ∃ z ∈ w.activeZgc, ∃ n, PyScalar.toInt (some z.portIbo) = .ok n

/-- **A node is known from the request on**, and its program is loaded if the port number can be
sent. -/
structure NodeAdded (w : World) (ip : Text) (V : PortView) : Prop where
  vpcs : V.vpcs = w.vpcs
  ports : V.ports = w.ports
  epRows : V.epRows = w.epRows
  activeZgc : V.activeZgc = w.activeZgc
  nodeIps : V.nodeIps = w.nodeIps.insert ip
  vnis : V.vnis = w.vnis
  eps : V.eps = w.eps
  maps : ∀ n, V.maps n = w.maps n ∨ n = ip ∧ V.maps n = loadTransitXdp (w.maps n)
  loaded : w.HasPort → V.maps ip = loadTransitXdp (w.maps ip)

theorem nodeLoadTransitXdp_added (w : World) (ip : Text) : Triple (fun s => s = w)
    (nodeLoadTransitXdp ip) (fun _ s => NodeAdded w ip s.portView)
    fun _ s => NodeAdded w ip s.portView := by
  have hraise : ¬ w.HasPort →
      NodeAdded w ip ({ w with nodeIps := w.nodeIps.insert ip } : World).portView := fun hn =>
    ⟨rfl, rfl, rfl, rfl, rfl, rfl, rfl, fun _ => .inl rfl, fun hp => absurd hp hn⟩
  refine Triple.bind (Q := fun _ s => s = { w with nodeIps := w.nodeIps.insert ip })
    (Triple.modifyState fun _ h => h ▸ rfl) fun _ => Triple.bind Triple.getState fun w' => ?_
  cases hz : w'.activeZgc with
  | none =>
    refine Triple.raise ?_
    rintro _ ⟨rfl, rfl⟩
    refine hraise fun ⟨z, hz', _⟩ => ?_
    cases hz.symm.trans hz'
  | some z =>
    refine Triple.bind_ofExcept (fun n hn => Triple.modifyState ?_) ?_
    · rintro _ ⟨rfl, rfl⟩
      refine ⟨rfl, rfl, rfl, rfl, rfl, rfl, rfl, fun n => ?_, fun _ => if_pos rfl⟩
      by_cases hn : n = ip
      · exact .inr ⟨hn, if_pos hn⟩
      · exact .inl (if_neg hn)
    · rintro e _ he ⟨rfl, rfl⟩
      refine hraise fun ⟨z', hz', n, hn⟩ => ?_
      obtain rfl := Option.some.inj (hz.symm.trans hz')
      cases he.symm.trans hn

/-- **A request for a node** makes it known, or lacks a key and changes nothing. -/
theorem allNodesPost_cases (env : Env) (w : World) (nodeId : Text) (d : NodePost) :
    (allNodesPost env nodeId d w).2 = w ∨
      ∃ ip ∈ d.ipControl, NodeAdded w ip (allNodesPost env nodeId d w).2.portView := by
  have hread (v : Option Text) : Triple (fun s => s = w) (readKey v) (fun t s => s = w ∧ t ∈ v)
      fun _ s => s = w := by
    cases v with
    | none => exact Triple.raise fun _ h => h
    | some t => exact Triple.pure fun _ h => ⟨h, rfl⟩
  refine Triple.final (P := fun s => s = w)
    (I := fun s => s = w ∨ ∃ ip ∈ d.ipControl, NodeAdded w ip s.portView) ?_ rfl
  refine Triple.bind ((hread d.ipControl).exc fun _ _ h => .inl h) fun ip =>
    Triple.assume (fun _ h => h.2) fun hip => Triple.pre ?_ fun _ h => h.1
  refine Triple.bind (((hread d.infTenant).exc fun _ _ h => .inl h).post fun _ _ h => h.1) fun _ =>
    Triple.bind (((hread d.infZgc).exc fun _ _ h => .inl h).post fun _ _ h => h.1) fun _ => ?_
  refine (Triple.bind (nodeLoadTransitXdp_added w ip) fun _ => ?_).conseq (fun _ h => h)
    (fun _ _ h => .inr ⟨ip, hip, h⟩) fun _ _ h => .inr ⟨ip, hip, h⟩
  exact Keeps.frame (fun V => Keeps.bind (readKey_keeps _ _) fun zgcId => addNode_view zgcId nodeId d)
    fun s t ht hs => ht ▸ hs

end Nodes

/-! ## Effects -/

/-- **What a request does to ports, networks and endpoints.** -/
inductive Effect (env : Env) (col : IntegerColumn) (w : World) : Request → World → Prop
  | refused (r : Request) : Effect env col w r w
  | vpc (zgcId : Text) (b : NewVpc) {n : ℤ} (hnew : ∀ r ∈ w.vpcs, r.vpcId ≠ b.vpcId)
    (hn : col.stored b.vni = some n) : Effect env col w (.postVpc b) (w.withNetwork zgcId b n)
  | committed {portList : List PortBody} {w' : World} (h : Committed env w portList w') :
    Effect env col w (.postPorts portList) w'
  | stopped {portList : List PortBody} {w' : World} (h : Stopped w portList w') :
    Effect env col w (.postPorts portList) w'
  | put (portId macPort : Text) : Effect env col w (.putPort portId macPort) (w.withMac portId macPort)
  | delete (portId : Text) : Effect env col w (.deletePort portId) (w.withoutPort portId)
  | node {nodeId ip : Text} {d : NodePost} {w' : World} (h : NodeAdded w ip w'.portView) :
    Effect env col w (.postNode nodeId d) w'

theorem Request.run_effect (env : Env) (col : IntegerColumn) (w : World) (r : Request) :
    Effect env col w r (r.run env col w) := by
  cases r with
  | postVpc b =>
    rw [Request.run]
    rcases allVpcsPost_cases env col false w b with hw | ⟨hnew, zgcId, n, hn, hw⟩
    · rw [hw]
      exact .refused _
    · rw [hw]
      exact .vpc zgcId b hnew.new hn
  | postPorts portList =>
    rcases allPortsPost_cases env w portList with h | h
    · exact .committed h
    · exact .stopped h
  | putPort portId macPort =>
    rw [Request.run]
    rcases singlePortPut_cases w portId macPort with hw | hw
    · rw [hw]
      exact .refused _
    · rw [hw]
      exact .put portId macPort
  | deletePort portId =>
    rw [Request.run]
    rcases singlePortDelete_cases w portId with hw | hw
    · rw [hw]
      exact .refused _
    · rw [hw]
      exact .delete portId
  | postNode nodeId d =>
    rw [Request.run]
    rcases allNodesPost_cases env w nodeId d with hw | ⟨ip, -, hw⟩
    · rw [hw]
      exact .refused _
    · exact .node hw

end ArionDp
