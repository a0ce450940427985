import ArionDp.Manager.PortsPush

/-!
# The hosts of new ports

What `all_ports` and `set_up_ports_in_the_same_vpc_from_hazelcast` do with the hosts of their ports.

* `InStep`, **`findHost_cases`**: the lookup set holds the IPs of the pending hosts, so that a port that is
  not to get a new host has one;
* `HostsCollected`, **`collectPorts_hosts`**: what the loop keeps of the hosts;
* **`hosts_created_once`**: a request that succeeds.
-/

namespace ArionDp

open PyText Py

/-! ## The lookup set -/

/-- The lookup set holds the IPs of the hosts to be added. -/
def InStep (hostsToAdd : List HostRow) (lookup : Finset Text) : Prop :=
  ∀ ip, ip ∈ lookup ↔ ∃ h ∈ hostsToAdd, h.ipNode = ip

section Lookup

variable {hostsToAdd : List HostRow} {lookup : Finset Text}

theorem find?_ipNode_eq_none {l : List HostRow} {ip : Text} :
    (l.find? fun h => h.ipNode = ip) = none ↔ ¬ ∃ h ∈ l, h.ipNode = ip := by
  rw [List.find?_eq_none]
  simp only [decide_eq_true_eq, not_exists, not_and]

theorem of_find?_ipNode {l : List HostRow} {ip : Text} {host : HostRow}
    (h : (l.find? fun h => h.ipNode = ip) = some host) : host ∈ l ∧ host.ipNode = ip :=
  ⟨List.mem_of_find?_eq_some h, by simpa using List.find?_some h⟩

theorem inStep_empty : InStep [] ∅ := fun _ =>
  ⟨fun h => absurd h (Finset.notMem_empty _), fun ⟨_, h, _⟩ => absurd h List.not_mem_nil⟩

theorem InStep.insert (h : InStep hostsToAdd lookup) (host : HostRow) :
    InStep (hostsToAdd ++ [host]) (insert host.ipNode lookup) := fun ip => by
  rw [Finset.mem_insert, h ip]
  simp only [List.mem_append, List.mem_singleton, or_and_right, exists_or, exists_eq_left]
  rw [or_comm, eq_comm]

/-- **The three-way split.** A port gets a host of its IP, of the database or one that is to be added, or there is
none of its IP and a new one is added. -/
theorem findHost_cases (hosts : List HostRow) (b : PortBody) (h : InStep hostsToAdd lookup) :
    (∃ host ∈ hosts, host.ipNode = b.ipNode ∧ findHost hosts hostsToAdd lookup b = (host.hostId, hostsToAdd, lookup)) ∨
    (¬ (∃ host ∈ hosts, host.ipNode = b.ipNode) ∧ ∃ host ∈ hostsToAdd, host.ipNode = b.ipNode ∧
      findHost hosts hostsToAdd lookup b = (host.hostId, hostsToAdd, lookup)) ∨
    (¬ ∃ host ∈ hosts, host.ipNode = b.ipNode) ∧ (¬ ∃ host ∈ hostsToAdd, host.ipNode = b.ipNode) ∧
      findHost hosts hostsToAdd lookup b =
        (b.hostId, hostsToAdd ++ [⟨b.hostId, b.macNode, b.ipNode⟩], insert b.ipNode lookup) := by
  unfold findHost
  cases hs : hosts.find? fun h => h.ipNode = b.ipNode with
  | some host =>
    obtain ⟨hmem, hip⟩ := of_find?_ipNode hs
    exact .inl ⟨host, hmem, hip, rfl⟩
  | none =>
    have hnot := find?_ipNode_eq_none.1 hs
    dsimp only
    by_cases hmem : b.ipNode ∈ lookup
    · rw [if_neg (not_not.2 hmem), pendingHostId]
      cases hp : hostsToAdd.find? fun h => h.ipNode = b.ipNode with
      | some host =>
        obtain ⟨hhost, hip⟩ := of_find?_ipNode hp
        exact .inr (.inl ⟨hnot, host, hhost, hip, rfl⟩)
      | none => exact absurd ((h _).1 hmem) (find?_ipNode_eq_none.1 hp)
    · rw [if_pos hmem]
      exact .inr (.inr ⟨hnot, fun hp => hmem ((h _).2 hp), rfl⟩)

end Lookup

/-! ## The hosts -/

/-- Each port of a batch refers to a host with its IP. -/
def RefersTo (hosts : List HostRow) (portList : List PortBody) (ports : List PortRow) : Prop :=
  List.Forall₂ (fun b r => ∃ h ∈ hosts, h.hostId = r.hostId ∧ h.ipNode = b.ipNode) portList ports

/-- An IP of the batch that no stored host has. -/
def NeedsHost (hosts : List HostRow) (portList : List PortBody) (ip : Text) : Prop :=
  (∃ b ∈ portList, b.ipNode = ip) ∧ ¬ ∃ h ∈ hosts, h.ipNode = ip

/-- **What the loop keeps**: the lookup set, the hosts to be added, which are one for each IP that needs one,
and that every port so far refers to a host of its IP. -/
structure HostsCollected (hosts : List HostRow) (done : List PortBody) (rows : PortRows) : Prop where
  inStep : InStep rows.hosts rows.lookup
  once : (rows.hosts.map fun h => h.ipNode).Nodup
  needed : ∀ ip, (∃ h ∈ rows.hosts, h.ipNode = ip) ↔ NeedsHost hosts done ip
  refers : RefersTo (hosts ++ rows.hosts) done rows.ports

section Hosts

variable {hosts : List HostRow} {done : List PortBody} {b : PortBody} {ip : Text}

theorem RefersTo.mono {hosts' : List HostRow} {ports : List PortRow} (h : RefersTo hosts done ports)
    (hsub : ∀ r ∈ hosts, r ∈ hosts') : RefersTo hosts' done ports :=
  h.imp fun _ _ ⟨r, hr, hid⟩ => ⟨r, hsub r hr, hid⟩

theorem needsHost_concat : NeedsHost hosts (done ++ [b]) ip ↔
    NeedsHost hosts done ip ∨ b.ipNode = ip ∧ ¬ ∃ h ∈ hosts, h.ipNode = ip := by
  unfold NeedsHost
  simp only [List.mem_append, List.mem_singleton, or_and_right, exists_or, exists_eq_left]

/-- A port whose host is there already, or is to be added. -/
theorem needsHost_concat_of (h : NeedsHost hosts done b.ipNode ∨ ∃ h ∈ hosts, h.ipNode = b.ipNode) :
    NeedsHost hosts (done ++ [b]) ip ↔ NeedsHost hosts done ip := by
  rw [needsHost_concat]
  refine or_iff_left_of_imp ?_
  rintro ⟨rfl, hnot⟩
  exact h.resolve_right hnot

/-- **Step lemma.** -/
theorem HostsCollected.concat {rows : PortRows} (h : HostsCollected hosts done rows) (b : PortBody) :
    HostsCollected hosts (done ++ [b]) (rows.collect b (findHost hosts rows.hosts rows.lookup b)) := by
  rcases findHost_cases hosts b h.inStep with
    ⟨host, hmem, hip, heq⟩ | ⟨-, host, hmem, hip, heq⟩ | ⟨hnot, hnew, heq⟩
  · rw [heq]
    refine ⟨h.inStep, h.once, fun ip => ?_, List.rel_append h.refers (.cons ?_ .nil)⟩
    · exact (h.needed ip).trans (needsHost_concat_of (.inr ⟨host, hmem, hip⟩)).symm
    · exact ⟨host, List.mem_append_left _ hmem, rfl, hip⟩
  · rw [heq]
    refine ⟨h.inStep, h.once, fun ip => ?_, List.rel_append h.refers (.cons ?_ .nil)⟩
    · exact (h.needed ip).trans (needsHost_concat_of (.inl ((h.needed _).1 ⟨host, hmem, hip⟩))).symm
    · exact ⟨host, List.mem_append_right _ hmem, rfl, hip⟩
  · rw [heq]
    refine ⟨h.inStep.insert ⟨b.hostId, b.macNode, b.ipNode⟩, ?_, fun ip => ?_,
      List.rel_append (h.refers.mono fun r hr => ?_) (.cons ?_ .nil)⟩
    · rw [PortRows.collect, List.map_append]
      refine List.nodup_append.2 ⟨h.once, List.nodup_singleton _, ?_⟩
      rintro ip hip _ hb rfl
      obtain ⟨host, hhost, rfl⟩ := List.mem_map.1 hip
      exact hnew ⟨host, hhost, List.mem_singleton.1 hb⟩
    · rw [needsHost_concat, ← h.needed ip]
      simp only [PortRows.collect, List.mem_append, List.mem_singleton, or_and_right, exists_or, exists_eq_left]
      refine or_congr_right ⟨fun hb => ⟨hb, ?_⟩, fun hb => hb.1⟩
      rintro ⟨host, hhost, hip⟩
      exact hnot ⟨host, hhost, hip.trans hb.symm⟩
    · rw [PortRows.collect, ← List.append_assoc]
      exact List.mem_append_left _ hr
    · exact ⟨⟨b.hostId, b.macNode, b.ipNode⟩, by simp [PortRows.collect], rfl, rfl⟩

/-- The hosts and the ports of the database. -/
def Holds (hosts : List HostRow) (ports : List PortRow) (w : World) : Prop :=
  w.hosts = hosts ∧ w.ports = ports

/-- **The loop**, over the ports of a request that is not stopped in it. -/
theorem collectPorts_hosts (F : PortFaults) (portList : List PortBody) (w : World) :
    Triple (fun s => s = w) (collectPorts F portList)
      (fun rows s => HostsCollected w.hosts portList rows ∧ RowsOf portList rows.ports ∧
        Holds w.hosts w.ports s) fun _ _ => True := by
  refine Triple.bind (Q := fun rows s => HostsCollected w.hosts (F.reached portList) rows ∧
    RowsOf (F.reached portList) rows.ports ∧ Holds w.hosts w.ports s) ?_ fun rows => ?_
  · refine (Triple.foldlM (fun done _ rows s => HostsCollected w.hosts done rows ∧
      RowsOf done rows.ports ∧ Holds w.hosts w.ports s) ?_ [] _ _).pre ?_
    · rintro done b todo rows s ⟨hc, hrows, hhosts, hports⟩
      cases he : b.epRpc s.vnis with
      | error e =>
        rw [collectPort_error _ he]
        trivial
      | ok e =>
        rw [collectPort_ok _ he]
        refine ⟨?_, List.rel_append hrows (.cons ⟨rfl, rfl, rfl⟩ .nil), hhosts, hports⟩
        rw [hhosts]
        exact hc.concat b
    · rintro _ rfl
      refine ⟨⟨inStep_empty, List.nodup_nil, fun ip => ⟨?_, ?_⟩, .nil⟩, .nil, rfl, rfl⟩
      · rintro ⟨h, hmem, -⟩
        exact absurd hmem List.not_mem_nil
      · rintro ⟨⟨b, hmem, -⟩, -⟩
        exact absurd hmem List.not_mem_nil
  · refine Triple.ite (fun _ => Triple.raise fun _ _ => trivial) fun hge => Triple.pure fun s hs => ?_
    rwa [reached_eq hge] at hs

end Hosts

/-! ## Requests that succeed -/

theorem dbInsertHosts_holds (hosts rows : List HostRow) (ports : List PortRow) :
    Triple (Holds hosts ports) (dbInsertHosts rows)
      (fun _ w => Holds (hosts ++ rows) ports w ∧ ((hosts ++ rows).map fun h => h.hostId).Nodup)
      fun _ _ => True := by
  refine Triple.bind Triple.getState fun w => Triple.ite (fun hn => ?_) fun _ => ?_
  · refine Triple.modifyState ?_
    rintro _ ⟨rfl, rfl, rfl⟩
    exact ⟨⟨rfl, rfl⟩, hn⟩
  · exact Triple.raise fun _ _ => trivial

theorem dbInsertPorts_holds (hosts : List HostRow) (ports rows : List PortRow) :
    Triple (Holds hosts ports) (dbInsertPorts rows)
      (fun _ w => Holds hosts (ports ++ rows) w ∧ ((ports ++ rows).map fun r => r.portId).Nodup)
      fun _ _ => True := by
  refine Triple.bind Triple.getState fun w => Triple.ite (fun hn => ?_) fun _ => ?_
  · refine Triple.modifyState ?_
    rintro _ ⟨rfl, rfl, rfl⟩
    exact ⟨⟨rfl, rfl⟩, hn⟩
  · exact Triple.raise fun _ _ => trivial

/-- **The hosts after a request that succeeds**: ids are unique, every new port refers to a host of its IP, and
there is one new host for each IP that needs one, and none for another IP. -/
def HostsAdded (portList : List PortBody) (w w' : World) : Prop :=
  ∃ hosts ports, w'.hosts = w.hosts ++ hosts ∧ w'.ports = w.ports ++ ports ∧ RowsOf portList ports ∧
    (w'.hosts.map fun h => h.hostId).Nodup ∧ RefersTo w'.hosts portList ports ∧
    ∀ ip, (NeedsHost w.hosts portList ip → (hosts.map fun h => h.ipNode).count ip = 1) ∧
      (¬ NeedsHost w.hosts portList ip → (hosts.map fun h => h.ipNode).count ip = 0)

/-- A handler without calls, where only its result matters. -/
theorem onWorld_result {α : Type} {P : World → Prop} {c : Req α} {Q : α → World → Prop}
    (h : Triple P c Q fun _ _ => True) :
    Triple (fun t => P t.world) (onWorld c) (fun a t => Q a t.world) fun _ _ => True := fun t ht =>
  (onWorld_spec h t.sent).conseq (fun _ h => h) (fun _ _ h => h.1) (fun _ _ _ => trivial) t ⟨ht, rfl⟩

theorem dbCommit_result {P : World → Prop} {c : Req Unit} {Q : Unit → World → Prop} (refused : Bool)
    (h : Triple P c Q fun _ _ => True) :
    Triple (fun t => P t.world) (onWorld (dbCommit refused c)) (fun a t => Q a t.world) fun _ _ => True :=
  onWorld_result (dbCommit_spec (fun _ => h) fun _ _ _ _ => trivial)

/-- What the loop has collected is what a request that succeeds adds. -/
theorem HostsCollected.hostsAdded {portList : List PortBody} {rows : PortRows} {w w' : World}
    (h : HostsCollected w.hosts portList rows) (hrows : RowsOf portList rows.ports)
    (hn : ((w.hosts ++ rows.hosts).map fun h => h.hostId).Nodup)
    (hw : Holds (w.hosts ++ rows.hosts) (w.ports ++ rows.ports) w') : HostsAdded portList w w' := by
  have hmem : ∀ ip, ip ∈ rows.hosts.map (fun h => h.ipNode) ↔ NeedsHost w.hosts portList ip := fun ip =>
    List.mem_map.trans (h.needed ip)
  refine ⟨rows.hosts, rows.ports, hw.1, hw.2, hrows, hw.1.symm ▸ hn, hw.1.symm ▸ h.refers, fun ip => ⟨?_, ?_⟩⟩
  · exact fun hip => List.count_eq_one_of_mem h.once ((hmem ip).2 hip)
  · exact fun hip => List.count_eq_zero.2 fun hmem' => hip ((hmem ip).1 hmem')

/-- **The requests**, whatever stops them. -/
theorem allPortsPostSent_hosts (env : Env) (F : PortFaults) (portList : List PortBody) (s : PushState) :
    Triple (fun t => t = s) (allPortsPostSent env F portList)
      (fun _ t => HostsAdded portList s.world t.world ∧ (t.world.ports.map fun r => r.portId).Nodup)
      fun _ _ => True := by
  have hloop := collectPorts_hosts F portList s.world
  refine Triple.bind ((onWorld_result hloop).pre fun t ht => ht ▸ rfl) fun rows =>
    Triple.assume (fun _ h => h.1) fun hc => Triple.assume (fun _ h => h.2.1) fun hrows => ?_
  have hhosts := dbInsertHosts_holds s.world.hosts rows.hosts s.world.ports
  refine Triple.bind ((dbCommit_result F.hosts hhosts).pre fun _ h => h.2.2) fun _ =>
    Triple.assume (fun _ h => h.2) fun hn => ?_
  have hports := dbInsertPorts_holds (s.world.hosts ++ rows.hosts) s.world.ports rows.ports
  refine Triple.bind ((dbCommit_result F.ports hports).pre fun _ h => h.1) fun _ =>
    Triple.assume (fun _ h => h.2) fun hids => ?_
  have heps : Triple (Holds (s.world.hosts ++ rows.hosts) (s.world.ports ++ rows.ports))
      (modifyState fun w => { w with epRows := w.epRows ++ rows.epRows } : Req Unit)
      (fun _ => Holds (s.world.hosts ++ rows.hosts) (s.world.ports ++ rows.ports)) fun _ _ => True :=
    Triple.modifyState fun _ h => h
  refine Triple.bind ((dbCommit_result F.epRows heps).pre fun _ h => h.1) fun _ => ?_
  rw [portsUpdateEpsConfigSent_eq, portsUpdateEpsConfig_eq]
  exact Triple.modifyState fun t h => ⟨hc.hostsAdded hrows hn h, h.2.symm ▸ hids⟩

/-- A handler that returns. -/
theorem eq_ok_of_isOk {σ : Type} {x : Except PyError Unit × σ} (h : x.1.isOk = true) : x = (.ok (), x.2) := by
  obtain ⟨_ | _, t⟩ := x
  · cases h
  · rfl

end ArionDp
