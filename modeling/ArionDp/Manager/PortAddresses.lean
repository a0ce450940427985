import ArionDp.Manager.PortHosts
import ArionDp.Manager.PortKeys

/-!
# The addresses of new ports

A request for ports is expanded twice: the nested loop adds a row of `EP` for each address, and the endpoints
that are sent have the first address of each port.

* `PortBody.endpoint`: what the nodes have to know of an address;
* `Programs`, `Covered`, **`programs_iff`**: entries that program the rows exactly;
* **`everyAddressSent_iff`**: the requests that program every address they store.
-/

namespace ArionDp

open PyText Py

/-- The entry of an address of a port, with the VNI that its network has. -/
def PortBody.endpoint (vni : Text → Option PyScalar) (b : PortBody) (ip : Text) : Except PyError EpRpc :=
  ArionDp.epRpc (vni b.vpcId) ip b.ipNode b.macPort b.macNode

/-- **The entries are those of the rows**: of the port of each row, with the VNI of its network's row and its
own addresses, and no others. -/
structure Programs (w : World) (portList : List PortBody) (added : List EpRow) (sent : List EpRpc) : Prop where
  every : ∀ r ∈ added, ∃ b ∈ portList, b.portId = r.portId ∧ ∃ e ∈ sent, b.endpoint w.vniOf r.ip = .ok e
  only : ∀ e ∈ sent, ∃ r ∈ added, ∃ b ∈ portList, b.portId = r.portId ∧ b.endpoint w.vniOf r.ip = .ok e

/-- An entry that goes out: it was left over, or is the one of a port's first address and of the VNI in `vnis`. -/
def GoesOut (w : World) (portList : List PortBody) (e : EpRpc) : Prop :=
  e ∈ w.eps ∨ ∃ b ∈ portList, b.epRpc w.vnis = .ok e

/-- An entry that is due: the one of an address of the request and of the VNI of its network's row. -/
def IsDue (w : World) (portList : List PortBody) (e : EpRpc) : Prop :=
  ∃ b ∈ portList, ∃ a ∈ b.ipsPort, b.endpoint w.vniOf a.ip = .ok e

/-- The VNI in `vnis` is the one of the row, or happens to make no difference; the addresses behind the first
ones add nothing to what goes out anyway; and what was left over is due as well. -/
structure Covered (w : World) (portList : List PortBody) : Prop where
  held : ∀ b ∈ portList, VniHeld w b.vpcId ∨ ∀ a ∈ b.ipsPort.head?,
    (∃ e, b.endpoint w.vniOf a.ip = .ok e ∧ GoesOut w portList e) ∧
      ∃ e, b.endpoint w.vnis a.ip = .ok e ∧ IsDue w portList e
  further : ∀ b ∈ portList, ∀ a ∈ b.ipsPort.tail, ∃ e, b.endpoint w.vniOf a.ip = .ok e ∧ GoesOut w portList e
  left : ∀ e ∈ w.eps, IsDue w portList e

section Rows

variable {w : World} {portList : List PortBody}

theorem PortBody.epRpc_eq_ok {vnis : Text → Option PyScalar} {b : PortBody} {e : EpRpc} :
    b.epRpc vnis = .ok e ↔ ∃ a ∈ b.ipsPort.head?, b.endpoint vnis a.ip = .ok e := by
  unfold PortBody.epRpc
  cases b.ipsPort with
  | nil =>
    refine ⟨fun h => ?_, fun ⟨_, ha, _⟩ => absurd ha (Option.not_mem_none _)⟩
    obtain ⟨_, -, h⟩ := bind_eq_ok.1 h
    cases h
  | cons a rest => exact ⟨fun h => ⟨a, rfl, h⟩, fun ⟨_, ha, h⟩ => by cases ha; exact h⟩

theorem mem_flatMap_epRows {r : EpRow} : r ∈ portList.flatMap PortBody.epRows ↔
    ∃ b ∈ portList, ∃ a ∈ b.ipsPort, r = ⟨a.ip, a.vip, b.portId⟩ := by
  unfold PortBody.epRows
  simp only [List.mem_flatMap, List.mem_map, eq_comm]

/-- The row of an address programs the address of its port. -/
theorem exists_row_iff (hn : (portList.map fun b => b.portId).Nodup) {e : EpRpc} :
    (∃ r ∈ portList.flatMap PortBody.epRows, ∃ b ∈ portList, b.portId = r.portId ∧
      b.endpoint w.vniOf r.ip = .ok e) ↔ IsDue w portList e := by
  constructor
  · rintro ⟨r, hr, b, hb, hid, he⟩
    obtain ⟨b', hb', a, ha, rfl⟩ := mem_flatMap_epRows.1 hr
    obtain rfl : b = b' := List.inj_on_of_nodup_map hn hb hb' hid
    exact ⟨b, hb, a, ha, he⟩
  · rintro ⟨b, hb, a, ha, he⟩
    exact ⟨_, mem_flatMap_epRows.2 ⟨b, hb, a, ha, rfl⟩, b, hb, rfl, he⟩

/-- Where the row holds the VNI, an entry that can be built has it. -/
theorem VniHeld.endpoint {b : PortBody} (h : VniHeld w b.vpcId) {ip : Text} {e : EpRpc}
    (he : b.endpoint w.vnis ip = .ok e) : b.endpoint w.vniOf ip = .ok e := by
  unfold PortBody.endpoint ArionDp.epRpc at he ⊢
  obtain ⟨vni, hvni, he⟩ := bind_eq_ok.1 he
  rw [h vni hvni]
  exact he

section Sent

variable (hn : (portList.map fun b => b.portId).Nodup) {es : List EpRpc} (he : Entries w portList es)

include he

/-- What is sent, after what was left over, goes out. -/
theorem mem_sent_iff {e : EpRpc} : e ∈ w.eps ++ es ↔ GoesOut w portList e := by
  refine List.mem_append.trans (or_congr_right ⟨exists_of_forall₂ he, fun ⟨b, hb, hbe⟩ => ?_⟩)
  obtain ⟨e', he', hbe'⟩ := exists_of_forall₂' he hb
  rwa [Except.ok.inj (hbe.symm.trans hbe')]

/-- The entry of a first address, with the VNI in `vnis`. -/
theorem exists_first {b : PortBody} (hb : b ∈ portList) {a : PortIp} (ha : a ∈ b.ipsPort.head?) :
    ∃ e, b.endpoint w.vnis a.ip = .ok e ∧ GoesOut w portList e := by
  obtain ⟨e, -, hbe⟩ := exists_of_forall₂' he hb
  obtain ⟨a', ha', hend⟩ := PortBody.epRpc_eq_ok.1 hbe
  obtain rfl := Option.some.inj (ha.symm.trans ha')
  exact ⟨e, hend, .inr ⟨b, hb, hbe⟩⟩

/-- Where the first addresses cover the others, the entry of every address goes out. -/
theorem Covered.goesOut (h : Covered w portList) {b : PortBody} (hb : b ∈ portList) {a : PortIp}
    (ha : a ∈ b.ipsPort) : ∃ e, b.endpoint w.vniOf a.ip = .ok e ∧ GoesOut w portList e := by
  cases hips : b.ipsPort with
  | nil =>
    rw [hips] at ha
    cases ha
  | cons a₀ rest =>
    rw [hips] at ha
    rcases List.mem_cons.1 ha with rfl | ha
    · have hhead : a ∈ b.ipsPort.head? := by rw [hips]; rfl
      rcases h.held b hb with hheld | hcov
      · obtain ⟨e, hend, hgo⟩ := exists_first he hb hhead
        exact ⟨e, hheld.endpoint hend, hgo⟩
      · exact (hcov a hhead).1
    · exact h.further b hb a (by rwa [hips])

omit he in
/-- Where the first addresses cover the others, what goes out is due. -/
theorem Covered.isDue (h : Covered w portList) {e : EpRpc} (hgo : GoesOut w portList e) : IsDue w portList e := by
  rcases hgo with hl | ⟨b, hb, hbe⟩
  · exact h.left e hl
  · obtain ⟨a, ha, hend⟩ := PortBody.epRpc_eq_ok.1 hbe
    rcases h.held b hb with hheld | hcov
    · exact ⟨b, hb, a, List.mem_of_mem_head? ha, hheld.endpoint hend⟩
    · obtain ⟨e', hend', hdue⟩ := (hcov a ha).2
      rwa [Except.ok.inj (hend.symm.trans hend')]

include hn

theorem Programs.covered (h : Programs w portList (portList.flatMap PortBody.epRows) (w.eps ++ es)) :
    Covered w portList := by
  have hdue : ∀ b ∈ portList, ∀ a ∈ b.ipsPort, ∃ e, b.endpoint w.vniOf a.ip = .ok e ∧
      GoesOut w portList e := fun b hb a ha => by
    obtain ⟨b', hb', hid, e, hsent, hbe⟩ := h.every _ (mem_flatMap_epRows.2 ⟨b, hb, a, ha, rfl⟩)
    obtain rfl : b' = b := List.inj_on_of_nodup_map hn hb' hb hid
    exact ⟨e, hbe, (mem_sent_iff he).1 hsent⟩
  have honly : ∀ e, GoesOut w portList e → IsDue w portList e := fun e hgo =>
    (exists_row_iff hn).1 (h.only e ((mem_sent_iff he).2 hgo))
  refine ⟨fun b hb => .inr fun a ha => ⟨hdue b hb a (List.mem_of_mem_head? ha), ?_⟩,
    fun b hb a ha => hdue b hb a (List.mem_of_mem_tail ha), fun e hl => honly e (.inl hl)⟩
  obtain ⟨e, hend, hgo⟩ := exists_first he hb ha
  exact ⟨e, hend, honly e hgo⟩

/-- **What is sent programs the rows** exactly if the first addresses, with the VNIs in `vnis`, cover the others. -/
theorem programs_iff : Programs w portList (portList.flatMap PortBody.epRows) (w.eps ++ es) ↔
    Covered w portList := by
  refine ⟨Programs.covered hn he, fun h => ⟨fun r hr => ?_, fun e hsent => (exists_row_iff hn).2 ?_⟩⟩
  · obtain ⟨b, hb, a, ha, rfl⟩ := mem_flatMap_epRows.1 hr
    obtain ⟨e, hend, hgo⟩ := h.goesOut he hb ha
    exact ⟨b, hb, rfl, e, (mem_sent_iff he).2 hgo, hend⟩
  · exact h.isDue ((mem_sent_iff he).1 hsent)

end Sent

end Rows

/-- **Every address is programmed**: a request sends each node the endpoints of the rows it adds. -/
def EveryAddressSent (portList : List PortBody) (s t : PushState) : Prop :=
  ∃ added calls, t.world.epRows = s.world.epRows ++ added ∧ t.sent = s.sent ++ calls ∧
    ∀ n ∈ s.world.nodeIps.ips, Programs s.world portList added (entriesFor n calls)

/-- **A request that succeeds programs every address it stores** exactly if there is no node, or `vnis` has the
VNIs of the rows, the first addresses of its ports cover the others and no foreign entry was left over. -/
theorem everyAddressSent_iff (env : Env) (F : PortFaults) (portList : List PortBody) (s t : PushState)
    (h : (PortsCall.post F portList).handle env s = (.ok (), t)) :
    EveryAddressSent portList s t ↔ s.world.nodeIps.ips = [] ∨ Covered s.world portList := by
  rw [PortsCall.handle_eq] at h
  have hids := allPortsPostSent_hosts env F portList s s rfl
  have hpush := (allPortsPostSent_spec s : Triple _ (allPortsPostSent env F portList) _ _) s rfl
  change allPortsPostSent env F portList s = _ at h
  rw [h] at hids hpush
  obtain ⟨-, es, rows, hosts, he, hrows, rfl⟩ := hpush
  have hn : (portList.map fun b => b.portId).Nodup := by
    have hall := hids.2
    rw [List.map_append, map_portId_of_rowsOf hrows] at hall
    exact (List.nodup_append.1 hall).2.1
  have hsent : ∀ n ∈ s.world.nodeIps.ips,
      entriesFor n (pushCalls s.world.nodeIps.ips (s.world.eps ++ es)) = s.world.eps ++ es := fun n hmem =>
    (entriesFor_pushCalls s.world.nodeIps.nodup _ n).trans (if_pos hmem)
  constructor
  · rintro ⟨added, calls, hadded, hcalls, hprog⟩
    obtain rfl := List.append_cancel_left hadded
    obtain rfl := List.append_cancel_left hcalls
    refine or_iff_not_imp_left.2 fun hne => ?_
    obtain ⟨n, hmem⟩ := List.exists_mem_of_ne_nil _ hne
    have hp := hprog n hmem
    rw [hsent n hmem] at hp
    exact (programs_iff hn he).1 hp
  · refine fun hc => ⟨_, _, rfl, rfl, fun n hmem => ?_⟩
    rw [hsent n hmem, programs_iff hn he]
    refine hc.resolve_left fun hnil => ?_
    rw [hnil] at hmem
    cases hmem

/-- A port with two addresses. -/
def twoAddresses : PortBody :=
  { samplePort "p" "10.10.0.92" with ipsPort := [⟨"10.10.0.92".toList, []⟩, ⟨"10.10.0.93".toList, []⟩] }

/-- Two ports, one with its address written twice. -/
def coveredPorts : List PortBody :=
  [{ samplePort "p" "10.10.0.92" with ipsPort := [⟨"10.10.0.92".toList, []⟩, ⟨"10.10.0.92".toList, []⟩] },
    samplePort "q" "10.10.0.93"]

theorem covered_sample : Covered pushStart.world coveredPorts where
  held b hb := by
    have hvnis : PyScalar.toInt (pushStart.world.vnis "v".toList) = .ok 888 := by decide +kernel
    have hrow : PyScalar.toInt (pushStart.world.vniOf "v".toList) = .ok 888 := by decide +kernel
    have hvpc : ∀ b ∈ coveredPorts, b.vpcId = "v".toList := by decide
    refine .inl fun n hn => ?_
    rw [hvpc b hb] at hn ⊢
    exact hrow.trans (hvnis.symm.trans hn)
  further b hb a ha := by
    let e : EpRpc := ⟨888, 168427612, 2886734153, 187723558158337, 2199023255625⟩
    have hfirst : ∃ b ∈ coveredPorts, b.epRpc pushStart.world.vnis = .ok e := by decide +kernel
    have hall : ∀ b ∈ coveredPorts, ∀ a ∈ b.ipsPort.tail,
        b.endpoint pushStart.world.vniOf a.ip = .ok e := by decide +kernel
    exact ⟨e, hall b hb a ha, .inr hfirst⟩
  left e he := by
    have heps : pushStart.world.eps = [] := by decide +kernel
    rw [heps] at he
    cases he

/-- An address that is written twice is programmed. -/
theorem everyAddressSent_iff_sample : EveryAddressSent coveredPorts pushStart
    ((PortsCall.post .none coveredPorts).handle .default pushStart).2 :=
  (everyAddressSent_iff .default .none coveredPorts pushStart _
    (eq_ok_of_isOk (by decide +kernel))).2 (.inr covered_sample)

/-- **The second address is not sent**, although its row is stored. -/
theorem second_address_not_sent : pushStart.world.eps = [] ∧
    ((PortsCall.post .none [twoAddresses]).handle .default pushStart).1.isOk = true ∧
    ¬ EveryAddressSent [twoAddresses] pushStart
      ((PortsCall.post .none [twoAddresses]).handle .default pushStart).2 := by
  refine ⟨by decide +kernel, by decide +kernel, ?_⟩
  have hnode : "172.16.0.1".toList ∈ pushStart.world.nodeIps.ips := by decide +kernel
  have hrow : ⟨"10.10.0.93".toList, [], "p".toList⟩ ∈
      ((PortsCall.post .none [twoAddresses]).handle .default pushStart).2.world.epRows := by decide +kernel
  have hsent : ∀ e ∈ entriesFor "172.16.0.1".toList
      ((PortsCall.post .none [twoAddresses]).handle .default pushStart).2.sent,
      twoAddresses.endpoint pushStart.world.vniOf "10.10.0.93".toList ≠ .ok e := by decide +kernel
  have hrows : pushStart.world.epRows = [] := by decide +kernel
  have hcalls : pushStart.sent = [] := by decide +kernel
  rintro ⟨added, calls, hadded, hall, hprog⟩
  rw [hrows, List.nil_append] at hadded
  rw [hcalls, List.nil_append] at hall
  rw [hadded] at hrow
  rw [hall] at hsent
  obtain ⟨b, hb, -, e, he, hbe⟩ := (hprog _ hnode).every _ hrow
  rw [List.mem_singleton.1 hb] at hbe
  exact hsent e he hbe

end ArionDp
