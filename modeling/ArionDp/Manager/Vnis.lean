import ArionDp.Manager.PortsPush

/-!
# VNIs of networks

The other handlers of `vpcs.py` that write. `vnis` of `settings.py` is a copy of the column, from which the
entries of ports are built.

* `singleVpcPut`, `singleVpcDelete`: the VNI of a network is changed, or the network removed;
* `NetworkCall`, `networkStep`: the requests for networks and for new ports as a system of steps;
* `VnisCurrent`: the copy is up to date, and so are the entries that are left over;
* `NetworkCall.KeepsVnis`, **`vnis_current`**: requests after which this is so, and what they send.
-/

namespace ArionDp

open PyText Py Runs

/-! ## Requests for networks -/

section Handlers

variable (col : IntegerColumn) (refused : Bool)

/-- `single_vpc`, a PUT; a VNI that is `None` is refused as well -/
def singleVpcPut (vpcId : Text) (vni : Option VniValue) : Req Unit := do
  let w ← getState
  if ∃ r ∈ w.vpcs, r.vpcId = vpcId then
    match vni.bind col.stored with
    | none => raise .integrityError
    | some n => dbCommit refused (modifyState fun w => { w with
        vpcs := w.vpcs.map fun r => if r.vpcId = vpcId then { r with vni := .int n } else r })
  else raise .attributeError

/-- `single_vpc`, a DELETE; ports of the network do not let it go -/
def singleVpcDelete (vpcId : Text) : Req Unit := do
  let w ← getState
  if ∃ r ∈ w.vpcs, r.vpcId = vpcId then
    if ∃ p ∈ w.ports, p.vpcId = vpcId then raise .integrityError
    else dbCommit refused (modifyState fun w => { w with
      vpcs := w.vpcs.filter fun r => r.vpcId ≠ vpcId })
  else raise .attributeError

end Handlers

/-! ## What they do -/

/-- The state with another VNI for a network. -/
def World.withVni (w : World) (vpcId : Text) (n : ℤ) : World :=
  { w with vpcs := w.vpcs.map fun r => if r.vpcId = vpcId then { r with vni := .int n } else r }

/-- The state without a network. -/
def World.withoutVpc (w : World) (vpcId : Text) : World :=
  { w with vpcs := w.vpcs.filter fun r => r.vpcId ≠ vpcId }

section Cases

variable (col : IntegerColumn) (refused : Bool) (w : World)

theorem singleVpcPut_cases (vpcId : Text) (vni : Option VniValue) :
    (singleVpcPut col refused vpcId vni w).2 = w ∨
      refused = false ∧ ∃ n, vni.bind col.stored = some n ∧
        (singleVpcPut col refused vpcId vni w).2 = w.withVni vpcId n := by
  refine Triple.final (P := fun s => s = w) (I := fun s => s = w ∨ refused = false ∧
    ∃ n, vni.bind col.stored = some n ∧ s = w.withVni vpcId n) ?_ rfl
  refine Triple.bind Triple.getState fun w' => Triple.ite (fun _ => ?_) fun _ => ?_
  · cases hn : vni.bind col.stored with
    | none => exact Triple.raise fun _ h => .inl h.2
    | some n =>
      refine dbCommit_spec (fun hr => Triple.modifyState ?_) fun _ _ _ h => .inl h.2
      rintro _ ⟨-, rfl⟩
      exact .inr ⟨hr, n, rfl, rfl⟩
  · exact Triple.raise fun _ h => .inl h.2

theorem singleVpcDelete_cases (vpcId : Text) : (singleVpcDelete refused vpcId w).2 = w ∨
    refused = false ∧ (∃ r ∈ w.vpcs, r.vpcId = vpcId) ∧ (¬ ∃ p ∈ w.ports, p.vpcId = vpcId) ∧
      (singleVpcDelete refused vpcId w).2 = w.withoutVpc vpcId := by
  refine Triple.final (P := fun s => s = w) (I := fun s => s = w ∨ refused = false ∧
    (∃ r ∈ w.vpcs, r.vpcId = vpcId) ∧ (¬ ∃ p ∈ w.ports, p.vpcId = vpcId) ∧
      s = w.withoutVpc vpcId) ?_ rfl
  refine Triple.bind Triple.getState fun w' => Triple.ite (fun hrow => ?_) fun _ => ?_
  · refine Triple.ite (fun _ => Triple.raise fun _ h => .inl h.2) fun hports => ?_
    refine dbCommit_spec (fun hr => Triple.modifyState ?_) fun _ _ _ h => .inl h.2
    rintro _ ⟨rfl, rfl⟩
    exact .inr ⟨hr, hrow, hports, rfl⟩
  · exact Triple.raise fun _ h => .inl h.2

end Cases

/-! ## Networks in the database -/

section Rows

variable {w : World}

theorem vniOf_withVni (vpcId : Text) (n : ℤ) (v : Text) :
    (w.withVni vpcId n).vniOf v = (w.vniOf v).map fun x => if v = vpcId then .int n else x := by
  have hid : ((fun r : VpcRow => decide (r.vpcId = v)) ∘ fun r => if r.vpcId = vpcId then
      { r with vni := .int n } else r) = fun r => decide (r.vpcId = v) := by
    funext r
    dsimp only [Function.comp]
    split_ifs <;> rfl
  unfold World.vniOf World.withVni
  dsimp only
  rw [List.find?_map, hid, Option.map_map, Option.map_map]
  refine Option.map_congr fun r hr => ?_
  have hv : r.vpcId = v := by simpa using List.find?_some hr
  dsimp only [Function.comp]
  rw [hv]
  split_ifs <;> rfl

end Rows

/-! ## Steps -/

/-- A request for a network, or new ports. -/
inductive NetworkCall
  | postVpc (refused : Bool) (b : NewVpc)
  | putVpc (refused : Bool) (vpcId : Text) (vni : Option VniValue)
  | deleteVpc (refused : Bool) (vpcId : Text)
  | postPorts (F : PortFaults) (portList : List PortBody)

/-- The ports of a request. -/
def NetworkCall.portList : NetworkCall → List PortBody
  | .postPorts _ portList => portList
  | _ => []

section Steps

variable (env : Env) (col : IntegerColumn)

/-- The state after a request, whether it returns or raises. -/
def NetworkCall.run : NetworkCall → PushState → PushState
  | .postVpc refused b, s => (onWorld (allVpcsPost env col refused b) s).2
  | .putVpc refused vpcId vni, s => (onWorld (singleVpcPut col refused vpcId vni) s).2
  | .deleteVpc refused vpcId, s => (onWorld (singleVpcDelete refused vpcId) s).2
  | .postPorts F portList, s => (allPortsPostSent env F portList s).2

/-- **A request that keeps the copy up to date**: the database does not take a number that it rounds to
another one than `int` does, nor another VNI for a network that it has, nor the removal of a network. -/
def NetworkCall.KeepsVnis : NetworkCall → PushState → Prop
  | .postVpc refused b, s => NewNetwork refused s.world b.vpcId →
    ∀ x n, b.vni = .float x → col.stored (.float x) = some n → x.num.tdiv x.den = n
  | .putVpc refused vpcId vni, s => refused = false →
    ∀ n, vni.bind col.stored = some n → ∀ v ∈ s.world.vniOf vpcId, v = .int n
  | .deleteVpc refused vpcId, s => refused = false →
    (∃ r ∈ s.world.vpcs, r.vpcId = vpcId) → ∃ p ∈ s.world.ports, p.vpcId = vpcId
  | .postPorts _ _, _ => True

end Steps

/-- **An entry of a port with the VNI that the database holds** for its network. -/
structure EntryOf (w : World) (b : PortBody) (e : EpRpc) : Prop where
  built : ∃ vnis, b.epRpc vnis = .ok e
  vni : w.vniOf b.vpcId = some (.int e.vni)

/-- **What is sent is current**: a request sends nothing, or entries of its ports, after those that are left
over of earlier ones, all of them with the VNI that the database holds. -/
def SentCurrent (earlier portList : List PortBody) (s s' : PushState) : Prop :=
  s'.sent = s.sent ∨ ∃ left es, left.Sublist earlier ∧
    List.Forall₂ (EntryOf s.world) (left ++ portList) es ∧
    s'.sent = s.sent ++ pushCalls s.world.nodeIps.ips es

/-- **The invariant**: the copy is that of the column, as `int` reads it, and the entries left over are
entries of earlier ports with the VNI that the database holds. -/
structure VnisCurrent (earlier : List PortBody) (w : World) : Prop where
  keys : KeysOfRows w
  same : ∀ v n, PyScalar.toInt (w.vnis v) = .ok n → w.vniOf v = some (.int n)
  queued : ∃ left, left.Sublist earlier ∧ List.Forall₂ (EntryOf w) left w.eps

section Invariant

variable {env : Env} {col : IntegerColumn} {earlier portList : List PortBody} {w : World}

/-- Entries that can be built have the VNI of the database. -/
theorem VnisCurrent.entries (h : VnisCurrent earlier w) {done : List PortBody} {es : List EpRpc}
    (he : Entries w done es) : List.Forall₂ (EntryOf w) done es :=
  he.imp fun _ _ hb => ⟨⟨_, hb⟩, h.same _ _ (PortBody.epRpc_ok hb).choose_spec.choose_spec.2.1⟩

/-- Other networks come and go. -/
theorem VnisCurrent.mono (h : VnisCurrent earlier w) {w' : World} (hkeys : KeysOfRows w')
    (hsame : ∀ v n, PyScalar.toInt (w'.vnis v) = .ok n → w'.vniOf v = some (.int n))
    (hvni : ∀ v x, w.vniOf v = some x → w'.vniOf v = some x) (heps : w'.eps = w.eps) :
    VnisCurrent earlier w' := by
  obtain ⟨left, hleft, he⟩ := h.queued
  exact ⟨hkeys, hsame, left, hleft, heps ▸ he.imp fun b e hb => ⟨hb.built, hvni _ _ hb.vni⟩⟩

/-- A new network. -/
theorem VnisCurrent.withNetwork (h : VnisCurrent earlier w) {b : NewVpc} {n : ℤ} (zgcId : Text)
    (hnew : ∀ r ∈ w.vpcs, r.vpcId ≠ b.vpcId) (hn : col.stored b.vni = some n)
    (hfloat : ∀ x m, b.vni = .float x → col.stored (.float x) = some m → x.num.tdiv x.den = m) :
    VnisCurrent earlier (w.withNetwork zgcId b n) := by
  refine h.mono (h.keys.withNetwork hnew zgcId n) (fun v m hm => ?_)
    (fun v x hv => vniOf_withNetwork_of_eq_some hnew zgcId n hv) rfl
  change PyScalar.toInt (if v = b.vpcId then some b.vni.cached else w.vnis v) = .ok m at hm
  rw [vniOf_withNetwork hnew]
  split_ifs at hm ⊢
  · rw [col.agrees hn hfloat hm]
  · exact h.same v m hm

/-- A network that gets the VNI that it has. -/
theorem VnisCurrent.withVni (h : VnisCurrent earlier w) {vpcId : Text} {n : ℤ}
    (hn : ∀ v ∈ w.vniOf vpcId, v = .int n) : VnisCurrent earlier (w.withVni vpcId n) := by
  have hvni : ∀ v, (w.withVni vpcId n).vniOf v = w.vniOf v := by
    intro v
    rw [vniOf_withVni]
    refine (Option.map_congr fun x hx => ?_).trans Option.map_id'
    split_ifs with hv
    · exact (hn x (hv ▸ hx)).symm
    · rfl
  refine h.mono (fun v => ?_) (fun v m hm => ?_) (fun v x hv => (hvni v).trans hv) rfl
  · rw [← isSome_vniOf, hvni, isSome_vniOf]
    exact h.keys v
  · rw [hvni]
    exact h.same v m hm

/-- A request for ports leaves networks alone, and entries of its own ports. -/
theorem VnisCurrent.afterPorts (h : VnisCurrent earlier w) {w' : World} (hvnis : w'.vnis = w.vnis)
    (hvpcs : w'.vpcs = w.vpcs) (hqueued : ∃ left, left.Sublist (earlier ++ portList) ∧
      List.Forall₂ (EntryOf w) left w'.eps) : VnisCurrent (earlier ++ portList) w' := by
  have hvni : w'.vniOf = w.vniOf := by
    unfold World.vniOf
    rw [hvpcs]
  obtain ⟨left, hleft, he⟩ := hqueued
  refine ⟨fun v => ?_, fun v n hn => ?_, left, hleft, he.imp fun _ _ hb => ⟨hb.built, ?_⟩⟩
  · rw [hvnis, hvpcs]
    exact h.keys v
  · rw [hvni]
    exact h.same v n (hvnis ▸ hn)
  · rw [hvni]
    exact hb.vni

/-- A request that is stopped leaves entries of ports that it has been through. -/
theorem VnisCurrent.leftOver (h : VnisCurrent earlier w) {F : PortFaults} {w' : World}
    (hw : LeftOver F w portList w') : VnisCurrent (earlier ++ portList) w' := by
  obtain ⟨done, todo, es, rows, hosts, rfl, -, he, -, -, rfl⟩ := hw
  obtain ⟨left, hleft, hqueued⟩ := h.queued
  exact h.afterPorts rfl rfl ⟨left ++ done, hleft.append (List.sublist_append_left ..),
    List.rel_append hqueued (h.entries he)⟩

/-- A push leaves no entries. -/
theorem VnisCurrent.pushed {s t : PushState} (h : VnisCurrent earlier s.world)
    (ht : Pushed env s portList t) :
    VnisCurrent (earlier ++ portList) t.world ∧ SentCurrent earlier portList s t := by
  obtain ⟨es, rows, hosts, he, -, rfl⟩ := ht
  obtain ⟨left, hleft, hqueued⟩ := h.queued
  exact ⟨h.afterPorts rfl rfl ⟨[], List.nil_sublist _, .nil⟩,
    .inr ⟨left, _, hleft, List.rel_append hqueued (h.entries he), rfl⟩⟩

/-- **Step lemma.** -/
theorem VnisCurrent.step {s : PushState} (h : VnisCurrent earlier s.world) {c : NetworkCall}
    (hc : c.KeepsVnis col s) : VnisCurrent (earlier ++ c.portList) (c.run env col s).world ∧
      SentCurrent earlier c.portList s (c.run env col s) := by
  cases c with
  | postVpc refused b =>
    refine ⟨?_, .inl rfl⟩
    change VnisCurrent (earlier ++ []) (allVpcsPost env col refused b s.world).2
    rw [List.append_nil]
    rcases allVpcsPost_cases env col refused s.world b with
      hw | ⟨hnew, zgcId, n, hn, hw⟩
    · rwa [hw]
    · rw [hw]
      exact h.withNetwork zgcId hnew.new hn (hc hnew)
  | putVpc refused vpcId vni =>
    refine ⟨?_, .inl rfl⟩
    change VnisCurrent (earlier ++ []) (singleVpcPut col refused vpcId vni s.world).2
    rw [List.append_nil]
    rcases singleVpcPut_cases col refused s.world vpcId vni with
      hw | ⟨hr, n, hn, hw⟩
    · rwa [hw]
    · rw [hw]
      exact h.withVni (hc hr n hn)
  | deleteVpc refused vpcId =>
    refine ⟨?_, .inl rfl⟩
    change VnisCurrent (earlier ++ []) (singleVpcDelete refused vpcId s.world).2
    rw [List.append_nil]
    rcases singleVpcDelete_cases refused s.world vpcId with
      hw | ⟨hr, hrow, hports, -⟩
    · rwa [hw]
    · exact absurd (hc hr hrow) hports
  | postPorts F portList =>
    refine Triple.final (P := fun t => t = s) (I := fun t => VnisCurrent (earlier ++ portList) t.world ∧
      SentCurrent earlier portList s t) ?_ rfl
    exact (allPortsPostSent_spec s).conseq (fun _ ht => ht) (fun _ t ht => h.pushed ht.2)
      fun _ t ht => ⟨h.leftOver ht.1, .inl ht.2⟩

end Invariant

end ArionDp
