import ArionDp.Manager.Entrances
import ArionDp.Manager.FailedCalls
import ArionDp.Manager.GwRows
import Mathlib.Data.Set.List

/-!
# Requests that nodes install

A node has room for 128 entrances and its command line refuses more, but the manager sends whatever a
droplet lists: all of the range for the first node of a ZGC.

* `Installable`: droplets that share at most 128 different addresses;
* `Installed`, `Recorded`: what a request should lead to;
* **`newNodeGws_fitting`**, **`singleNodeDelete_fitting`**: what an addition and a removal leave, and
  what they send;
* **`run_requests_installed`**, and `first_request_refused`.
-/

namespace ArionDp

open ApiServer Py PyText Wire Inet

/-! ## Droplets that share few addresses -/

/-- The addresses that droplets list. -/
def addrs (l : List (Text × Droplet)) : List Text := l.flatMap fun e => e.2.spec.ip

theorem addrs_pairs (l : List Item) : addrs (pairs l) = poolIps l := List.flatMap_map ..

theorem addrs_perm {l l' : List (Text × Droplet)} (h : l.Perm l') : (addrs l).Perm (addrs l') :=
  h.flatMap_right _

theorem addrs_append (l l' : List (Text × Droplet)) : addrs (l ++ l') = addrs l ++ addrs l' :=
  List.flatMap_append ..

/-- Droplets with fewer addresses each have fewer addresses. -/
theorem addrs_map_sublist {l : List (Text × Droplet)} {f g : Text × Droplet → Text × Droplet}
    (h : ∀ e ∈ l, (f e).2.spec.ip.Sublist (g e).2.spec.ip) :
    (addrs (l.map f)).Sublist (addrs (l.map g)) := by
  induction l with
  | nil => exact List.Sublist.refl _
  | cons e l ih =>
    exact (h e (List.mem_cons_self ..)).append (ih fun e' he' => h e' (List.mem_cons_of_mem _ he'))

/-- A droplet in good order: it has an address, and its MAC addresses are those of its addresses. -/
def GoodDroplet (mp : MacPrivate) (e : Text × Droplet) : Prop :=
  e.2.spec.ip ≠ [] ∧ e.2.spec.ip.map (getMacFromIp mp.val) = e.2.spec.mac.map .ok

/-- **Droplets that share at most 128 different addresses**, all of them in good order. -/
structure Installable (mp : MacPrivate) (l : List (Text × Droplet)) : Prop where
  nodup : (addrs l).Nodup
  short : (addrs l).length ≤ tranMaxZgcEntrances
  plain : ∀ a ∈ addrs l, ∃ q : Fin 4 → U8, a = dotted q
  good : ∀ e ∈ l, GoodDroplet mp e

section Installable

variable {mp : MacPrivate} {l l' : List (Text × Droplet)}

/-- Other droplets, with no more addresses. -/
theorem Installable.mono (h : Installable mp l) (hs : (addrs l').Subperm (addrs l))
    (hg : ∀ e ∈ l', GoodDroplet mp e) : Installable mp l' where
  nodup := by
    obtain ⟨m, hm, hsub⟩ := hs
    exact hm.nodup_iff.1 (h.nodup.sublist hsub)
  short := hs.length_le.trans h.short
  plain a ha := h.plain a (hs.subset ha)
  good := hg

theorem Installable.nil : Installable mp [] where
  nodup := List.nodup_nil
  short := by simp [addrs]
  plain _ h := absurd h List.not_mem_nil
  good _ h := absurd h List.not_mem_nil

/-- MAC addresses tell the addresses apart. -/
theorem Installable.tidy {items : List Item} (h : Installable mp (pairs items)) :
    Tidy (getMacFromIp mp.val) items where
  nonempty d hd := (h.good _ (List.mem_map_of_mem hd)).1
  paired d hd := (h.good _ (List.mem_map_of_mem hd)).2
  nodup := addrs_pairs items ▸ h.nodup
  inj a ha b hb hab := by
    obtain ⟨q, rfl⟩ := h.plain a (by rwa [addrs_pairs])
    obtain ⟨q', rfl⟩ := h.plain b (by rwa [addrs_pairs])
    rw [getMacFromIp_dotted, getMacFromIp_dotted, Except.ok.injEq] at hab
    have hmac : MacText (gatewayMac mp q') (gateway mp q).mac := by
      rw [hab]
      exact gateway_macText mp q'
    rw [gatewayMac_inj mp ((gateway_macText mp q).unique hmac)]

/-- The addresses of one of the droplets. -/
theorem Installable.quads (h : Installable mp l) {e : Text × Droplet} (he : e ∈ l) :
    ∃ quads : List (Fin 4 → U8), e.2.spec.ip = quads.map dotted ∧
      e.2.spec.mac = quads.map (fun q => (gateway mp q).mac) ∧ quads.length ≤ tranMaxZgcEntrances ∧
      quads ≠ [] := by
  have hsub : e.2.spec.ip.Sublist (addrs l) := by
    rw [addrs, List.flatMap_def]
    exact List.sublist_flatten_of_mem (List.mem_map_of_mem he)
  obtain ⟨hne, hpaired⟩ := h.good e he
  obtain ⟨quads, hq⟩ : e.2.spec.ip ∈ Set.range (List.map dotted) := by
    rw [Set.range_list_map]
    intro a ha
    obtain ⟨q, rfl⟩ := h.plain a (hsub.subset ha)
    exact ⟨q, rfl⟩
  refine ⟨quads, hq.symm, macs_eq_gateways mp (hq ▸ hpaired), ?_, fun hc => hne ?_⟩
  · have hlen := hsub.length_le.trans h.short
    rwa [← hq, List.length_map] at hlen
  · rw [← hq, hc]
    rfl

end Installable

/-! ## Requests -/

/-- **A node installs what a configuration lists**: it has room for the entrances, its command line
accepts them, and the entry of the interface has their addresses. -/
structure Installed (num : JsonNumber) (d : Transitd) (c : ItfConf) : Prop where
  short : c.entrances.length ≤ tranMaxZgcEntrances
  accepted : ∃ droplet, trnCliParseDroplet (c.toJson.map num.read) = .ok droplet
  entry : ∀ stack (m : IfConfigMap), ∃ itf eth conf m', c.interface = some itf ∧
    trnGetItfContext d itf = some eth ∧ trnRpcUpdateDroplet num c d stack (some m) = (true, some m') ∧
    m'.content eth.ifaceIndex = some conf ∧ Shows conf c.entrances

/-- The configuration is that of a droplet of the node. -/
def ConfOf (d : Item) (c : Text × ItfConf) : Prop :=
  d.body.nodeIp = c.1 ∧ c.2.interface = some d.body.spec.itf ∧ Lists d c.2.entrances

/-- Kubernetes has a droplet on the node with what the configuration lists. -/
def Recorded (k : Kube) (c : Text × ItfConf) : Prop := ∃ d ∈ k.objs, ConfOf d c

/-- The rows of the droplet's node have what the configuration lists. -/
def RowsRecorded (env : Env) (w : World) (c : Text × ItfConf) : Prop :=
  ∀ d ∈ w.kube.objs, ConfOf d c → ∀ r ∈ w.nodes, d.name = tenantName env r.name →
    r.gws = c.2.entrances

/-- The interface of a droplet is one that the daemon of its node has loaded the program on, and the array of the node
has its index. -/
def KnownItf (daemons : Text → Transitd) (b : Droplet) : Prop :=
  ∃ eth, trnGetItfContext (daemons b.nodeIp) b.spec.itf = some eth ∧ eth.ifaceIndex.toNat < tranMaxItf

section Sent

variable {mp : MacPrivate} {l : List (Text × Droplet)} {e : Text × Droplet}

theorem zipWith_gateways (mp : MacPrivate) (quads : List (Fin 4 → U8)) :
    List.zipWith GwAddr.mk (quads.map dotted) (quads.map fun q => (gateway mp q).mac) =
      quads.map (gateway mp) := by
  have hzip := zipAddrs_map (quads.map (gateway mp))
  rw [List.map_map, List.map_map, zipAddrs_eq (by rw [List.length_map, List.length_map])] at hzip
  exact Except.ok.inj hzip

/-- What is sent for a droplet in good order. -/
theorem Installable.sentConf_eq (h : Installable mp l) (he : e ∈ l) :
    ∃ quads : List (Fin 4 → U8), quads.length ≤ tranMaxZgcEntrances ∧
      e.2.spec.ip = quads.map dotted ∧ e.2.spec.mac = quads.map (fun q => (gateway mp q).mac) ∧
      sentConf e = (e.2.nodeIp,
        ⟨some e.2.spec.itf, (quads.map (gateway mp)).length, quads.map (gateway mp)⟩) := by
  obtain ⟨quads, hip, hmac, hlen, hne⟩ := h.quads he
  refine ⟨quads, hlen, hip, hmac, ?_⟩
  rw [sentConf, if_neg (h.good e he).1, hip, hmac, zipWith_gateways, List.length_map, List.length_map]

/-- **What is sent for a droplet in good order is installed.** -/
theorem Installable.installed (h : Installable mp l) (he : e ∈ l) (num : JsonNumber)
    {daemons : Text → Transitd} (hk : KnownItf daemons e.2) :
    Installed num (daemons (sentConf e).1) (sentConf e).2 := by
  obtain ⟨quads, hlen, -, -, hsent⟩ := h.sentConf_eq he
  obtain ⟨eth, heth, hindex⟩ := hk
  have hl : (quads.map (gateway mp)).length ≤ tranMaxZgcEntrances := by rwa [List.length_map]
  rw [hsent]
  refine ⟨hl, ⟨_, trnCliParseDroplet_itfConf num _ (forall₂_gateways mp quads) hl⟩, fun stack m => ?_⟩
  obtain ⟨conf, m', hshows, hlook, hrun⟩ :=
    trnRpcUpdateDroplet_shows num (forall₂_gateways mp quads) hl heth hindex stack m
  refine ⟨_, eth, conf, m', rfl, heth, hrun, ?_, hshows⟩
  rw [IfConfigMap.content, hlook]
  exact Function.update_self ..

theorem Installable.recorded (h : Installable mp l) (he : e ∈ l) {k : Kube} (hk : e ∈ pairs k.objs) :
    Recorded k (sentConf e) := by
  obtain ⟨quads, -, hip, hmac, hsent⟩ := h.sentConf_eq he
  obtain ⟨o, ho, rfl⟩ := List.mem_map.1 hk
  rw [hsent]
  refine ⟨o, ho, rfl, rfl, ?_, ?_⟩
  · rw [hip, List.map_map]
    rfl
  · rw [hmac, List.map_map]
    rfl

end Sent

/-! ## Droplets between requests -/

/-- A droplet is on a known interface and named after a node. -/
def Placed (env : Env) (daemons : Text → Transitd) (e : Text × Droplet) : Prop :=
  KnownItf daemons e.2 ∧ ∃ n, e.1 = tenantName env n

/-- **The invariant of the droplets**: those of each ZGC share few addresses, and all are placed. -/
structure Fitting (env : Env) (mp : MacPrivate) (daemons : Text → Transitd) (k : Kube) : Prop where
  pool : ∀ z, Installable mp (pairs (k.select (selectsTenant z)))
  placed : ∀ e ∈ pairs k.objs, Placed env daemons e

theorem pairs_objs (k : Kube) : pairs k.objs = pairs (k.select fun _ => true) := by
  rw [Store.select, List.filter_true]

/-- **A request keeps the droplets in order**, and what it sends is for some of them. -/
structure StepFits (env : Env) (mp : MacPrivate) (daemons : Text → Transitd) (w w' : World) : Prop where
  fitting : Fitting env mp daemons w'.kube
  sent : ∃ es : List (Text × Droplet), w'.itfConfs = w.itfConfs ++ es.map sentConf ∧
    ∀ e ∈ es, ∃ z, e ∈ pairs (w'.kube.select (selectsTenant z))

theorem StepFits.refl {env : Env} {mp : MacPrivate} {daemons : Text → Transitd} {w : World}
    (h : Fitting env mp daemons w.kube) : StepFits env mp daemons w w :=
  ⟨h, [], (List.append_nil _).symm, fun _ he => absurd he List.not_mem_nil⟩

/-- A version of a droplet is among the droplets after the writes. -/
theorem Versions.mem_overlay {k : Kube} {z : Text} {l : List Item} (h : Versions k z l)
    {e : Text × Droplet} (he : e ∈ pairs l) :
    e ∈ (pairs (k.select (selectsTenant z))).map (overlay (pairs l)) := by
  have hn : ((pairs l).map Prod.fst).Nodup := by
    rw [map_fst_pairs]
    exact h.nodup
  obtain ⟨d', hd', rfl⟩ := List.mem_map.1 he
  obtain ⟨d, hd, hs⟩ := h.same d' hd'
  refine List.mem_map.2 ⟨(d.name, d.body), List.mem_map_of_mem hd, ?_⟩
  rw [overlay_of_mem (b := d'.body) hn (hs.name_eq ▸ he), hs.name_eq]

/-- Writes change neither names nor nodes nor interfaces. -/
theorem Versions.overlay_cases {k : Kube} {z : Text} {l : List Item} (h : Versions k z l)
    {e : Text × Droplet} (he : e ∈ pairs k.objs) :
    overlay (pairs l) e = e ∨ ∃ d d', d ∈ k.select (selectsTenant z) ∧ d' ∈ l ∧ SameLabels d d' ∧
      e = (d.name, d.body) ∧ overlay (pairs l) e = (d'.name, d'.body) := by
  by_cases hw : e.1 ∈ (pairs l).map Prod.fst
  · right
    have hn : ((pairs l).map Prod.fst).Nodup := by
      rw [map_fst_pairs]
      exact h.nodup
    rw [map_fst_pairs] at hw
    obtain ⟨d', hd', hdn⟩ := List.mem_map.1 hw
    obtain ⟨o, ho, rfl⟩ := List.mem_map.1 he
    obtain ⟨d, hd, hs⟩ := h.same d' hd'
    obtain rfl := k.eq_of_name_eq ho (mem_select.1 hd).1 (hdn.symm.trans hs.name_eq)
    refine ⟨o, d', hd, hd', hs, rfl, ?_⟩
    rw [overlay_of_mem (b := d'.body) hn (List.mem_map.2 ⟨d', hd', Prod.ext hdn rfl⟩), hs.name_eq]
  · exact .inl (overlay_of_notMem hw)

/-- Droplets that list what they should still do when others like that are written. -/
theorem Versions.good_overlay {k : Kube} {z : Text} {l : List Item} (h : Versions k z l)
    {mp : MacPrivate} (hl : ∀ d ∈ l, GoodDroplet mp (d.name, d.body))
    (hk : ∀ e ∈ pairs (k.select (selectsTenant z)), GoodDroplet mp e) :
    ∀ e ∈ (pairs (k.select (selectsTenant z))).map (overlay (pairs l)), GoodDroplet mp e := by
  intro e he
  obtain ⟨e', he', rfl⟩ := List.mem_map.1 he
  have hobjs : e' ∈ pairs k.objs := by
    obtain ⟨d, hd, rfl⟩ := List.mem_map.1 he'
    exact List.mem_map_of_mem (mem_select.1 hd).1
  rcases h.overlay_cases hobjs with hsame | ⟨d, d', -, hd', -, -, hnew⟩
  · rw [hsame]
    exact hk e' he'
  · rw [hnew]
    exact hl d' hd'

/-- Part of a plan that takes nothing away gives each droplet at most what the plan does. -/
theorem Versions.overlay_sublist {k : Kube} {z : Text} {l written : List Item} (h : Versions k z l)
    (hgrown : ∀ d' ∈ l, ∃ d ∈ k.select (selectsTenant z), SameLabels d d' ∧
      d.body.spec.ip <+: d'.body.spec.ip) (hsub : written.Sublist l) :
    (addrs ((pairs (k.select (selectsTenant z))).map (overlay (pairs written)))).Sublist
      (addrs ((pairs (k.select (selectsTenant z))).map (overlay (pairs l)))) := by
  refine addrs_map_sublist fun e he => ?_
  have hobjs : e ∈ pairs k.objs := by
    obtain ⟨d, hd, rfl⟩ := List.mem_map.1 he
    exact List.mem_map_of_mem (mem_select.1 hd).1
  rcases (h.sublist hsub).overlay_cases hobjs with hsame | ⟨o, d', -, hd', hs, rfl, hnew⟩
  · rw [hsame]
    rcases h.overlay_cases hobjs with hsame' | ⟨o, d', ho, hd', hs, rfl, hnew⟩
    · rw [hsame']
    · obtain ⟨o', ho', hs', hpre⟩ := hgrown d' hd'
      obtain rfl := k.eq_of_name_eq (mem_select.1 ho).1 (mem_select.1 ho').1
        (hs.name_eq.symm.trans hs'.name_eq)
      rw [hnew]
      exact hpre.sublist
  · have hn : ((pairs l).map Prod.fst).Nodup := by
      rw [map_fst_pairs]
      exact h.nodup
    have hboth : overlay (pairs l) (o.name, o.body) = (o.name, d'.body) :=
      overlay_of_mem hn (List.mem_map.2 ⟨d', hsub.subset hd', Prod.ext hs.name_eq rfl⟩)
    rw [hnew, hboth]

section Wrote

variable {w w' : World} {z : Text} {written : List Item} {new : List (Text × Droplet)}

/-- Droplets stay where they are, and the new ones are placed. -/
theorem Wrote.placed (h : Wrote w w' written new) (hv : Versions w.kube z written) {env : Env}
    {daemons : Text → Transitd} (hw : ∀ e ∈ pairs w.kube.objs, Placed env daemons e)
    (hnew : ∀ e ∈ new, Placed env daemons e) : ∀ e ∈ pairs w'.kube.objs, Placed env daemons e := by
  rw [pairs_objs, h.select (fun _ => true) fun _ _ _ => rfl, ← pairs_objs]
  intro e he
  rcases List.mem_append.1 he with he | he
  · obtain ⟨e', he', rfl⟩ := List.mem_map.1 he
    have hp := hw e' he'
    rcases hv.overlay_cases he' with hsame | ⟨d, d', -, -, ⟨_, _, rfl⟩, rfl, hnew'⟩
    · rwa [hsame]
    · rw [hnew']
      exact hp
  · exact hnew e (List.mem_of_mem_filter he)

/-- **Frame**: the droplets of other ZGCs stay as they are. -/
theorem Wrote.select_other (h : Wrote w w' written new) (hv : Versions w.kube z written)
    (hnew : ∀ e ∈ new, e.2.zgcId = z) {z' : Text} (hz : z ≠ z') :
    pairs (w'.kube.select (selectsTenant z')) = pairs (w.kube.select (selectsTenant z')) := by
  rw [h.select _ (byLabels_selectsTenant z'), hv.overlay_other hz, List.filter_eq_nil_iff.2,
    List.append_nil]
  exact fun e he hc => hz ((hnew e he).symm.trans (of_decide_eq_true hc).1)

/-- What has been sent is for droplets of the ZGC. -/
theorem Wrote.sent_mem (h : Wrote w w' written new) (hv : Versions w.kube z written)
    (hnew : ∀ e ∈ new, selectsTenant z e.2 = true) :
    ∀ e ∈ pairs written ++ new, e ∈ pairs (w'.kube.select (selectsTenant z)) := by
  rw [h.select _ (byLabels_selectsTenant z)]
  intro e he
  rcases List.mem_append.1 he with he | he
  · exact List.mem_append_left _ (hv.mem_overlay he)
  · exact List.mem_append_right _ (List.mem_filter.2 ⟨he, hnew e he⟩)

end Wrote

/-! ## Additions -/

/-- **The range of a ZGC has 1 to 128 addresses.** -/
def RangeFits (r : ZgcRow) : Prop :=
  ∀ first last, ipToInt r.ipStart = .ok first → ipToInt r.ipEnd = .ok last →
    0 ≤ first ∧ first ≤ last ∧ last < first + tranMaxZgcEntrances ∧ last < 2 ^ 32

/-- **An addition fits**: the range of the ZGC does if the node is the first one there, and the droplets
that give addresses are replaced. -/
structure AdditionFits (env : Env) (w : World) (z : Text) (p : Plan) : Prop where
  range : w.kube.select (selectsTenant z) = [] →
    ∀ r ∈ w.zgcs.find? fun r => r.zgcId = z, RangeFits r
  replaced : ∀ d ∈ p.modified, env.kubeFails d.name = false

theorem RangeFits.gateways {r : ZgcRow} (h : RangeFits r) {mp : MacPrivate} {gws : List GwAddr}
    (hgws : getGWsFromIpRange mp.val r.ipStart r.ipEnd = .ok gws) :
    ∃ quads : List (Fin 4 → U8), quads.Nodup ∧ quads ≠ [] ∧ quads.length ≤ tranMaxZgcEntrances ∧
      gws = quads.map (gateway mp) := by
  obtain ⟨first, hf, hrest⟩ := bind_eq_ok.1 hgws
  obtain ⟨last, hl, -⟩ := bind_eq_ok.1 hrest
  obtain ⟨h0, hle, h128, h32⟩ := h first last hf hl
  lift first to ℕ using h0
  lift last to ℕ using (by omega)
  have hlast : last < 2 ^ 32 := by exact_mod_cast h32
  obtain rfl : _ = gws := Except.ok.inj ((getGWsFromIpRange_eq mp hf hl hlast).symm.trans hgws)
  have hlt : ∀ n ∈ (List.range (last + 1 - first)).map (first + ·), n < 256 ^ 4 := by
    intro n hn
    obtain ⟨i, hi, rfl⟩ := List.mem_map.1 hn
    have := List.mem_range.1 hi
    omega
  have hlen : (((List.range (last + 1 - first)).map (first + ·)).map fun n => octets 4 n).length =
      last + 1 - first := by
    rw [List.length_map, List.length_map, List.length_range]
  refine ⟨((List.range (last + 1 - first)).map (first + ·)).map fun n => octets 4 n, ?_, ?_, ?_, ?_⟩
  · refine List.Nodup.map_on (fun m hm n hn he => ?_)
      (List.Nodup.map (fun _ _ h => Nat.add_left_cancel h) List.nodup_range)
    rw [← octetsNat_octets (hlt m hm), he, octetsNat_octets (hlt n hn)]
  · refine List.ne_nil_of_length_pos ?_
    rw [hlen]
    omega
  · rw [hlen]
    omega
  · rw [List.map_map (g := gateway mp)]
    refine List.map_congr_left fun n hn => ?_
    rw [Function.comp_apply, gateway, octetsNat_octets (hlt n hn), ipText_eq_dotted]

/-- A droplet with gateways of its own. -/
theorem installable_singleton {mp : MacPrivate} {quads : List (Fin 4 → U8)} (hn : quads.Nodup)
    (hne : quads ≠ []) (hlen : quads.length ≤ tranMaxZgcEntrances) {e : Text × Droplet}
    (hip : e.2.spec.ip = quads.map dotted)
    (hmac : e.2.spec.mac = quads.map fun q => (gateway mp q).mac) : Installable mp [e] := by
  have haddrs : addrs [e] = quads.map dotted := by
    rw [addrs, List.flatMap_singleton, hip]
  refine ⟨?_, ?_, ?_, ?_⟩
  · rw [haddrs]
    exact hn.map fun _ _ h => dotted_inj h
  · rwa [haddrs, List.length_map]
  · rw [haddrs]
    intro a ha
    obtain ⟨q, -, rfl⟩ := List.mem_map.1 ha
    exact ⟨q, rfl⟩
  · intro e' he'
    obtain rfl := List.mem_singleton.1 he'
    refine ⟨fun hc => hne (List.map_eq_nil_iff.1 (hip.symm.trans hc)), ?_⟩
    rw [hip, hmac, List.map_map, List.map_map]
    exact List.map_congr_left fun q _ => getMacFromIp_dotted mp q

section Addition

variable {env : Env} {mp : MacPrivate} (hmac : env.macPrivate = mp.val) {w : World} {z : Text}
  {b : NodeBody} {p : Plan} (hp : PlansTo env w z b p)

theorem writtenTo_sublist (env : Env) (ips : List Text) (l : List Item) :
    (writtenTo env ips l).Sublist l :=
  List.filter_sublist.trans (List.takeWhile_sublist _)

include hp

theorem PlansTo.versions : Versions w.kube z p.modified := by
  obtain ⟨-, hplan⟩ := hp
  split_ifs at hplan with hnil
  · obtain ⟨zgc, gws, -, -, rfl⟩ := hplan
    exact ⟨List.nodup_nil, fun d hd => absurd hd List.not_mem_nil⟩
  · obtain ⟨items, hplanned, -⟩ := planAddition_planned _ _ hplan p rfl
    exact hplanned.versions (env.order.perm _)

/-- The donors that are written list no more than before. -/
theorem PlansTo.overlay_sublist :
    (addrs ((pairs (w.kube.select (selectsTenant z))).map
      (overlay (pairs (writtenTo env (w.nodes.map fun r => r.ipControl) p.modified))))).Sublist
      (addrs (pairs (w.kube.select (selectsTenant z)))) := by
  have hsub := addrs_map_sublist (l := pairs (w.kube.select (selectsTenant z))) (g := id)
    (f := overlay (pairs (writtenTo env (w.nodes.map fun r => r.ipControl) p.modified)))
    fun e he => ?_
  · rwa [List.map_id] at hsub
  · obtain ⟨d, hd, rfl⟩ := List.mem_map.1 he
    exact (hp.takes.overlay_prefix (writtenTo_sublist ..) (isTenant_of_mem hd)).sublist

include hmac

/-- The first droplet of a ZGC has the gateways of the range. -/
theorem PlansTo.installable_first (hnil : w.kube.select (selectsTenant z) = [])
    (hcreated : Created env w b p → AdditionFits env w z p) (hc : Created env w b p) :
    Installable mp [newDroplet env z b p] := by
  obtain ⟨-, hplan⟩ := hp
  rw [if_pos hnil, hmac] at hplan
  obtain ⟨zgc, gws, hzgc, hgws, rfl⟩ := hplan
  obtain ⟨quads, hn, hne, hlen, rfl⟩ := ((hcreated hc).range hnil zgc hzgc).gateways hgws
  exact installable_singleton hn hne hlen List.map_map List.map_map

/-- **The droplets of the ZGC after an addition.** -/
theorem PlansTo.installable (hi : Installable mp (pairs (w.kube.select (selectsTenant z))))
    (hcreated : Created env w b p → AdditionFits env w z p) :
    Installable mp ((pairs (w.kube.select (selectsTenant z))).map
        (overlay (pairs (writtenTo env (w.nodes.map fun r => r.ipControl) p.modified))) ++
      if Created env w b p then [newDroplet env z b p] else []) := by
  by_cases hnil : w.kube.select (selectsTenant z) = []
  · rw [hnil]
    split_ifs with hc
    · exact hp.installable_first hmac hnil hcreated hc
    · exact .nil
  · have hv := hp.versions.sublist
      (writtenTo_sublist env (w.nodes.map fun r => r.ipControl) p.modified)
    have hsub := hp.overlay_sublist
    obtain ⟨-, hplan⟩ := hp
    rw [if_neg hnil, hmac] at hplan
    have hall := env.order.perm (w.kube.select (selectsTenant z))
    generalize env.order.run (w.kube.select (selectsTenant z)) = all at hplan hall
    rcases planAddition_spec (hi.tidy.perm hall.symm) with
      hnone | ⟨p', items, hplan', hplanned, hpool, hpne, hgood, hmacs⟩
    · cases hnone.symm.trans hplan
    obtain rfl : p' = p := Option.some.inj (Except.ok.inj (hplan'.symm.trans hplan))
    have hold := hv.good_overlay
      (fun d hd => hgood d (hplanned.mem d ((writtenTo_sublist ..).subset hd))) hi.good
    split_ifs with hc
    · -- all donors are written, so the addresses have only moved
      refine hi.mono (List.Perm.subperm ?_) fun e he => ?_
      · have hnew : addrs [newDroplet env z b p'] = p'.ips := List.flatMap_singleton ..
        rw [writtenTo_eq_self hc.1 (hcreated hc).replaced, addrs_append, hnew, addrs_pairs]
        refine ((addrs_perm (hplanned.overlay_perm hall)).append_right _).trans ?_
        rw [addrs_pairs]
        exact hpool.trans (poolIps_perm hall)
      · rcases List.mem_append.1 he with he | he
        · exact hold e he
        · rw [List.mem_singleton.1 he]
          exact ⟨hpne, hmacs⟩
    · -- some donors may have been written
      rw [List.append_nil]
      exact hi.mono hsub.subperm hold

/-- **An addition keeps the droplets in order**, and sends what some of them list. -/
theorem newNodeGws_fitting {daemons : Text → Transitd} (h : Fitting env mp daemons w.kube)
    (hknown : Created env w b p → KnownItf daemons (newDroplet env z b p).2)
    (hcreated : Created env w b p → AdditionFits env w z p) :
    StepFits env mp daemons w (newNodeGws env z b w).2 := by
  have hw := newNodeGws_planned hp
  have hv := hp.versions.sublist (writtenTo_sublist env (w.nodes.map fun r => r.ipControl) p.modified)
  have hown := hp.installable hmac (h.pool z) hcreated
  have hnew : ∀ e ∈ (if Created env w b p then [newDroplet env z b p] else []),
      Created env w b p ∧ e = newDroplet env z b p := by
    intro e he
    split_ifs at he with hc
    · exact ⟨hc, List.mem_singleton.1 he⟩
    · exact absurd he List.not_mem_nil
  have hsel : selectsTenant z (newDroplet env z b p).2 = true := decide_eq_true ⟨rfl, rfl⟩
  refine ⟨⟨fun z' => ?_, ?_⟩, _, hw.sent, fun e he => ⟨z, ?_⟩⟩
  · by_cases hz : z = z'
    · subst hz
      rw [hw.select _ (byLabels_selectsTenant z), List.filter_eq_self.2 fun e he => ?_]
      · exact hown
      · rw [(hnew e he).2]
        exact hsel
    · rw [hw.select_other hv (fun e he => ?_) hz]
      · exact h.pool z'
      · rw [(hnew e he).2]
        rfl
  · refine hw.placed hv h.placed fun e he => ?_
    obtain ⟨hc, rfl⟩ := hnew e he
    exact ⟨hknown hc, b.name, rfl⟩
  · refine hw.sent_mem hv (fun e he => ?_) e he
    rw [(hnew e he).2]
    exact hsel

end Addition

/-! ## Removals -/

section Removal

variable (env : Env) {w : World}

/-- The droplets that get addresses are written, unless Kubernetes refuses. -/
theorem forEach_updateDroplet {l : List Item} (hn : (l.map fun d => d.name).Nodup)
    (hc : ∀ d ∈ l, Current w.kube d) (hlen : ∀ d ∈ l, d.body.spec.ip.length ≤ d.body.spec.mac.length) :
    ∃ w', forEach (updateDroplet env) l w = (.ok (), w') ∧
      w'.kube = w.kube.putAll (pairs (l.filter fun d => env.kubeFails d.name = false)) ∧
      w'.itfConfs = w.itfConfs ++
        (pairs (l.filter fun d => env.kubeFails d.name = false)).map sentConf := by
  induction l generalizing w with
  | nil => exact ⟨w, rfl, rfl, (List.append_nil _).symm⟩
  | cons d l ih =>
    rw [List.map_cons, List.nodup_cons] at hn
    cases hk : env.kubeFails d.name with
    | true =>
      obtain ⟨w', h', hk', hi'⟩ := ih hn.2 (fun e he => hc e (List.mem_cons_of_mem _ he))
        fun e he => hlen e (List.mem_cons_of_mem _ he)
      refine ⟨w', ?_, ?_, ?_⟩
      · rw [forEach, bind_run, updateDroplet_refused hk]
        exact h'
      · rw [hk', List.filter_cons_of_neg (by simp [hk])]
      · rw [hi', List.filter_cons_of_neg (by simp [hk])]
    | false =>
      have hrun := updateDroplet_run (w := w) hk (hc d (List.mem_cons_self ..))
        (zipAddrs_eq (hlen d (List.mem_cons_self ..)))
      have hc₁ : ∀ e ∈ l, Current (w.kube.put d.name d.body) e := by
        intro e he
        obtain ⟨o, ho, hv⟩ := hc e (List.mem_cons_of_mem _ he)
        have hne : e.name ≠ d.name := fun hed => hn.1 (hed ▸ List.mem_map_of_mem he)
        exact ⟨o, (Store.get?_put_of_ne _ _ hne).trans ho, hv⟩
      obtain ⟨w', h', hk', hi'⟩ := ih
        (w := { w with kube := w.kube.put d.name d.body }.sent d.body.nodeIp d.body.spec
          (List.zipWith GwAddr.mk d.body.spec.ip d.body.spec.mac)) hn.2 hc₁
        fun e he => hlen e (List.mem_cons_of_mem _ he)
      refine ⟨w', ?_, ?_, ?_⟩
      · rw [forEach, bind_run, hrun]
        exact h'
      · rw [hk', List.filter_cons_of_pos (by simp [hk])]
        rfl
      · rw [hi', List.filter_cons_of_pos (by simp [hk]), World.sent, List.append_assoc]
        rfl

variable {env} {mp : MacPrivate} {z : Text} {all : List Item} {d : Item} {k₁ : Kube}
  {modified written : List Item}

/-- **The droplets of the ZGC after a removal.** -/
theorem removal_installable (hi : Installable mp (pairs (w.kube.select (selectsTenant z))))
    (hall : all.Perm (w.kube.select (selectsTenant z))) (hd : d ∈ all)
    (hobjs : k₁.objs = w.kube.objs.filter fun o => o.name ≠ d.name)
    (hplan : planRemoval (getMacFromIp mp.val) d.body.spec.ip (all.erase d) = .ok modified)
    (hsub : written.Sublist modified) :
    Versions k₁ z modified ∧ (∀ e ∈ modified, GoodDroplet mp (e.name, e.body)) ∧
      Installable mp ((pairs (k₁.select (selectsTenant z))).map (overlay (pairs written))) := by
  obtain ⟨items, hp, hpool, hgood⟩ := (hi.tidy.perm hall.symm).removed hd hplan
  have hperm := erase_perm_select hall hd hobjs
  have hasc := (ascending_perm (all.erase d)).trans hperm
  have hv := hp.versions hasc
  have hold : ∀ e ∈ pairs (k₁.select (selectsTenant z)), GoodDroplet mp e := by
    intro e he
    obtain ⟨o, ho, rfl⟩ := List.mem_map.1 he
    exact hi.good _ (List.mem_map_of_mem (hall.mem_iff.1 (List.mem_of_mem_erase (hperm.mem_iff.2 ho))))
  have hmodified : ∀ e ∈ modified, GoodDroplet mp (e.name, e.body) :=
    fun e he => hgood e (hp.mem e he)
  refine ⟨hv, hmodified, hi.mono ?_ ((hv.sublist hsub).good_overlay
    (fun e he => hmodified e (hsub.subset he)) hold)⟩
  have hle := hv.overlay_sublist (fun d' hd' => by
    obtain ⟨o, ho, hs⟩ := planRemoval_grown _ _ _ hplan d' hd'
    exact ⟨o, hasc.mem_iff.1 ho, hs⟩) hsub
  refine hle.subperm.trans (List.Perm.subperm ?_)
  refine (addrs_perm (hp.overlay_perm hasc)).trans ?_
  rw [addrs_pairs, addrs_pairs]
  refine hpool.trans (List.perm_append_comm.trans ?_)
  exact (poolIps_perm (List.perm_cons_erase hd)).symm.trans (poolIps_perm hall)

/-- **What a removal does** when the droplet of the node can be deleted: the droplets of the plan
are written, unless Kubernetes refuses, and the row of the node stays. -/
theorem carryOutRemoval_run {node : NodeRow}
    (hcall : env.kubeFails (tenantName env node.name) = false)
    (hdel : w.kube.delete (tenantName env node.name) = some k₁)
    (hnames : ∀ o ∈ k₁.objs, ∃ n, o.name = tenantName env n) (hv : Versions k₁ z modified)
    (hlen : ∀ e ∈ modified, e.body.spec.ip.length ≤ e.body.spec.mac.length) :
    ∃ w' : World, (carryOutRemoval env node modified w).2 =
        { w' with nodeIps := w'.nodeIps.pop node.ipControl } ∧
      w'.kube = k₁.putAll (pairs (modified.filter fun d => env.kubeFails d.name = false)) ∧
      w'.itfConfs = w.itfConfs ++
        (pairs (modified.filter fun d => env.kubeFails d.name = false)).map sentConf := by
  have hfirst : deleteDroplet env (tenantName env node.name) w = (.ok (), { w with kube := k₁ }) :=
    logApiException_ok (kubeWrite_run hcall hdel)
  have hsecond : deleteDroplet env (zgcName env node.name) { w with kube := k₁ } =
      (.ok (), { w with kube := k₁ }) := by
    refine logApiException_refused (kubeWrite_refused (.inr (delete_of_notMem k₁ fun o ho hon => ?_)))
    obtain ⟨n, hn⟩ := hnames o ho
    exact tenantName_ne_zgcName n node.name (hn.symm.trans hon)
  obtain ⟨w', hw', hk', hi'⟩ :=
    forEach_updateDroplet env (w := { w with kube := k₁ }) hv.nodup hv.current hlen
  refine ⟨w', ?_, hk', hi'⟩
  rw [carryOutRemoval, bind_run, hfirst]
  dsimp only
  rw [bind_run, hsecond]
  dsimp only
  rw [bind_run, hw']
  rfl

/-- **A removal that is carried out** keeps the droplets in order. -/
theorem carryOutRemoval_fitting {node : NodeRow} {daemons : Text → Transitd}
    (h : Fitting env mp daemons w.kube) (hall : all.Perm (w.kube.select (selectsTenant node.zgcId)))
    (hd : d ∈ all) (hdn : d.name = tenantName env node.name)
    (hcall : env.kubeFails (tenantName env node.name) = false)
    (hplan : planRemoval (getMacFromIp mp.val) d.body.spec.ip (all.erase d) = .ok modified) :
    StepFits env mp daemons w (carryOutRemoval env node modified w).2 := by
  have hdk := hall.mem_iff.1 hd
  obtain ⟨k₁, hk₁, hobjs⟩ := delete_of_mem w.kube ⟨d, (mem_select.1 hdk).1, hdn⟩
  rw [← hdn] at hobjs
  have hsub : (modified.filter fun d => env.kubeFails d.name = false).Sublist modified :=
    List.filter_sublist
  obtain ⟨hv, hgood, hown⟩ := removal_installable (h.pool node.zgcId) hall hd hobjs hplan hsub
  have hplaced : ∀ e ∈ pairs k₁.objs, Placed env daemons e := by
    intro e he
    obtain ⟨o, ho, rfl⟩ := List.mem_map.1 he
    rw [hobjs] at ho
    exact h.placed _ (List.mem_map_of_mem (List.mem_of_mem_filter ho))
  obtain ⟨w', hend, hk', hi'⟩ := carryOutRemoval_run hcall hk₁
    (fun o ho => (hplaced (o.name, o.body) (List.mem_map_of_mem ho)).2) hv
    fun e he => (Paired.length_eq (hgood e he).2).ge
  rw [hend]
  have hw : Wrote { w with kube := k₁ } { w' with nodeIps := w'.nodeIps.pop node.ipControl }
      (modified.filter fun d => env.kubeFails d.name = false) [] :=
    (hv.sublist hsub).wrote hk' hi'
  have hnone : ∀ {q : Text × Droplet → Prop}, ∀ e ∈ ([] : List (Text × Droplet)), q e :=
    fun e he => absurd he List.not_mem_nil
  refine ⟨⟨fun z' => ?_, hw.placed (hv.sublist hsub) hplaced hnone⟩, _, hw.sent,
    fun e he => ⟨node.zgcId, hw.sent_mem (hv.sublist hsub) hnone e he⟩⟩
  by_cases hz : node.zgcId = z'
  · subst hz
    rw [hw.select _ (byLabels_selectsTenant node.zgcId), List.filter_nil, List.append_nil]
    exact hown
  · rw [hw.select_other (hv.sublist hsub) hnone hz, (Apart.delete hz hdk hobjs).select]
    exact h.pool z'

/-- **A removal keeps the droplets in order**, and sends what some of them list. -/
theorem singleNodeDelete_fitting (hmac : env.macPrivate = mp.val) {daemons : Text → Transitd}
    (h : Fitting env mp daemons w.kube) {nodeId : Text}
    (hcalls : ∀ node ∈ w.nodes.find? fun r => r.nodeId = nodeId,
      env.kubeFails (tenantName env node.name) = false) :
    StepFits env mp daemons w (singleNodeDelete env nodeId w).2 := by
  cases hnode : w.nodes.find? fun r => r.nodeId = nodeId with
  | none =>
    rw [singleNodeDelete, bind_run, getState_run]
    dsimp only
    rw [hnode]
    exact .refl h
  | some node =>
    obtain rfl : node.nodeId = nodeId := by simpa using List.find?_some hnode
    obtain ⟨all, hall, hrun⟩ := singleNodeDelete_run env hnode
    rw [hrun]
    cases hfind : all.find? fun d => d.name = tenantName env node.name with
    | none => exact .refl h
    | some d =>
      have hdn : d.name = tenantName env node.name := by simpa using List.find?_some hfind
      dsimp only
      cases hplan : planRemoval (getMacFromIp env.macPrivate) d.body.spec.ip (all.erase d) with
      | error e => exact .refl h
      | ok modified =>
        rw [hmac] at hplan
        exact carryOutRemoval_fitting h hall (List.mem_of_find?_eq_some hfind) hdn (hcalls node hnode) hplan

end Removal

/-! ## Runs -/

/-- An environment where Kubernetes refuses some writes. -/
def Env.failing (env : Env) (fails : Text → Bool) : Env := { env with kubeFails := fails }

/-- A request, and the writes that Kubernetes refuses while it is handled. -/
abbrev NodeCall := (Text → Bool) × NodeOp

/-- A request as a step. -/
def callStep (env : Env) (c : NodeCall) (w : World) : Option World :=
  some (c.2.run (env.failing c.1) w)

/-- The state after a sequence of requests. -/
def runCalls (env : Env) (cs : List NodeCall) (w : World) : World :=
  cs.foldl (fun w c => c.2.run (env.failing c.1) w) w

/-- **The requests that nodes install.** Where an addition's droplet is created, it is on a known
interface and the addition fits; a removal's droplet is deleted. -/
def NodeCall.Fits (env : Env) (daemons : Text → Transitd) (c : NodeCall) (w : World) : Prop :=
  (∀ z b p, c.2.Joins w z b → PlansTo (env.failing c.1) w z b p → Created (env.failing c.1) w b p →
    (∃ eth, trnGetItfContext (daemons b.ipControl) b.infTenant = some eth ∧ eth.ifaceIndex.toNat < tranMaxItf) ∧
      AdditionFits (env.failing c.1) w z p) ∧
  ∀ nodeId, c.2 = .delete nodeId → ∀ node ∈ w.nodes.find? fun r => r.nodeId = nodeId,
    c.1 (tenantName env node.name) = false

/-- A request that writes rows and droplets together, with nothing refused. -/
def NodeCall.Mirrors (env : Env) (c : NodeCall) (w : World) : Prop :=
  (∀ n, c.1 n = false) ∧ c.2.Mirrors (env.failing c.1) w

section Runs

variable {env : Env} {mp : MacPrivate} {daemons : Text → Transitd}

/-- Neither the droplets' names nor where they are depends on what is refused. -/
theorem Fitting.failing {k : Kube} (h : Fitting env mp daemons k) (fails : Text → Bool) :
    Fitting (env.failing fails) mp daemons k := ⟨h.pool, h.placed⟩

theorem StepFits.of_calls (fails : Text → Bool) {w w' s s' : World}
    (h : StepFits (env.failing fails) mp daemons s s') (hs : w.calls = s.calls)
    (hs' : w'.calls = s'.calls) : StepFits env mp daemons w w' := by
  obtain ⟨-, hi⟩ := Prod.mk.inj hs
  obtain ⟨hk', hi'⟩ := Prod.mk.inj hs'
  refine ⟨?_, ?_⟩
  · rw [hk']
    exact ⟨h.fitting.pool, h.fitting.placed⟩
  · rw [hk', hi, hi']
    exact h.sent

/-- **A request that fits keeps the droplets in order.** -/
theorem callStep_fitting (hmac : env.macPrivate = mp.val) {c : NodeCall} {w : World}
    (h : Fitting env mp daemons w.kube) (hc : c.Fits env daemons w) :
    StepFits env mp daemons w (c.2.run (env.failing c.1) w) := by
  obtain ⟨hadd, hdel⟩ := hc
  have hmac' : (env.failing c.1).macPrivate = mp.val := hmac
  have hadded : ∀ nodeId b, c.2 = .post nodeId b ∨ c.2 = .hazelcast nodeId b →
      StepFits env mp daemons w (c.2.run (env.failing c.1) w) := by
    intro nodeId b hop
    rcases NodeOp.run_calls (env.failing c.1) w hop with ⟨z, hjoins, hcalls⟩ | ⟨-, hcalls⟩
    · refine StepFits.of_calls c.1 (s := w.loaded b.ipControl) ?_ rfl hcalls
      by_cases hp : ∃ p, PlansTo (env.failing c.1) (w.loaded b.ipControl) z b p
      · obtain ⟨p, hp⟩ := hp
        have hfits := hadd z b p ((hjoins z).2 rfl) hp
        exact newNodeGws_fitting hmac' hp (h.failing c.1) (fun hc => (hfits hc).1) fun hc =>
          ⟨(hfits hc).2.range, (hfits hc).2.replaced⟩
      · rw [newNodeGws_unplanned fun p hpl => hp ⟨p, hpl⟩]
        exact .refl (h.failing c.1)
    · exact .of_calls c.1 (.refl (h.failing c.1)) rfl hcalls
  cases hop : c.2 with
  | post nodeId b => exact hop ▸ hadded nodeId b (.inl hop)
  | hazelcast nodeId b => exact hop ▸ hadded nodeId b (.inr hop)
  | delete nodeId =>
    have hstep : StepFits (env.failing c.1) mp daemons w (singleNodeDelete (env.failing c.1) nodeId w).2 :=
      singleNodeDelete_fitting hmac' (h.failing c.1) (hdel nodeId hop)
    exact hstep.of_calls c.1 rfl rfl

theorem run_callStep (cs : List NodeCall) (w : World) :
    Runs.run (callStep env) cs w = some (runCalls env cs w) := by
  induction cs generalizing w with
  | nil => rfl
  | cons c cs ih => exact ih _

/-- The droplets after a run of requests that fit. -/
theorem runCalls_fitting (hmac : env.macPrivate = mp.val) {cs : List NodeCall} {w : World}
    (h : Fitting env mp daemons w.kube)
    (hcs : Runs.EachStep (callStep env) (NodeCall.Fits env daemons) cs w) :
    Fitting env mp daemons (runCalls env cs w).kube := by
  refine Runs.run_inv (I := fun w => Fitting env mp daemons w.kube) (fun c w w' h hc hw' => ?_)
    (run_callStep cs w) hcs h
  obtain rfl := Option.some.inj hw'
  exact (callStep_fitting hmac h hc).fitting

/-- The rows after a run of requests that write them with the droplets. -/
theorem runCalls_mirrored {cs : List NodeCall} {w : World} (h : Mirrored env w)
    (hcs : Runs.EachStep (callStep env) (NodeCall.Mirrors env) cs w) :
    Mirrored env (runCalls env cs w) := by
  refine Runs.run_inv (I := Mirrored env) (fun c w w' h hc hw' => ?_) (run_callStep cs w) hcs h
  obtain rfl := Option.some.inj hw'
  have hm : Mirrored (env.failing c.1) w := ⟨h.gws, h.unique.ids, h.unique.names⟩
  obtain ⟨hgws, hids, hnames⟩ := NodeOp.run_mirrored hc.1 hm c.2 hc.2
  exact ⟨hgws, hids, hnames⟩

/-- The rows of a node repeat what the request lists. -/
theorem Mirrored.rowsRecorded {w : World} (h : Mirrored env w) (c : Text × ItfConf) :
    RowsRecorded env w c := by
  rintro d hd ⟨-, -, hip, hmac⟩ r hr hdn
  obtain ⟨hip', hmac'⟩ := h.gws r hr d hd hdn
  have hzip := zipAddrs_map r.gws
  rw [hip', hmac', ← hip, ← hmac, zipAddrs_map] at hzip
  exact (Except.ok.inj hzip).symm

end Runs

/-- **Each request is installed.** In a run from no droplets whose requests all fit, whatever else
Kubernetes refuses, what each of them sends to nodes is accepted there, becomes the entry of the
interface, and is what Kubernetes has for a droplet of the node; and so have the rows of the node, as
long as requests write rows and droplets together. -/
theorem run_requests_installed (env : Env) (mp : MacPrivate) (hmac : env.macPrivate = mp.val)
    (daemons : Text → Transitd) (w : World) (hempty : w.kube.objs = []) (cs : List NodeCall)
    (hcs : Runs.EachStep (callStep env) (NodeCall.Fits env daemons) cs w) (n : ℕ) (hn : n < cs.length) :
    let u := runCalls env (cs.take n) w
    let v := runCalls env (cs.take (n + 1)) w
    ∀ c ∈ v.itfConfs.drop u.itfConfs.length,
      Installed env.num (daemons c.1) c.2 ∧ Recorded v.kube c ∧
      (RowsUnique env w.nodes →
        Runs.EachStep (callStep env) (NodeCall.Mirrors env) (cs.take (n + 1)) w → RowsRecorded env v c) := by
  intro u v c hc
  have hstart : Fitting env mp daemons w.kube := by
    refine ⟨fun z => ?_, fun e he => ?_⟩
    · rw [Store.select, hempty]
      exact .nil
    · rw [hempty] at he
      exact absurd he List.not_mem_nil
  have hlast : v = (cs[n]).2.run (env.failing (cs[n]).1) u := by
    change runCalls env (cs.take (n + 1)) w = _
    rw [List.take_succ_eq_append_getElem hn, runCalls, List.foldl_append]
    rfl
  have hfit := callStep_fitting hmac (runCalls_fitting hmac hstart (hcs.take n))
    (hcs.get (run_callStep (cs.take n) w) (List.getElem?_eq_getElem hn))
  rw [← hlast] at hfit
  obtain ⟨⟨hpool, hplaced⟩, es, hsent, hes⟩ := hfit
  rw [hsent, List.drop_left] at hc
  obtain ⟨e, he, rfl⟩ := List.mem_map.1 hc
  obtain ⟨z, hez⟩ := hes e he
  have hek : e ∈ pairs v.kube.objs := by
    obtain ⟨d, hd, rfl⟩ := List.mem_map.1 hez
    exact List.mem_map_of_mem (mem_select.1 hd).1
  refine ⟨(hpool z).installed hez env.num (hplaced e hek).1, (hpool z).recorded hez hek,
    fun hunique hm => (runCalls_mirrored ⟨?_, hunique⟩ hm).rowsRecorded _⟩
  intro r hr d hd
  rw [hempty] at hd
  exact absurd hd List.not_mem_nil

/-! ## Samples -/

/-- Two nodes join and the first one leaves; Kubernetes refuses nothing. -/
def joinAndLeave : List NodeCall :=
  (twoJoin ++ [NodeOp.delete "1".toList]).map fun op => (fun _ => false, op)

theorem fourZgc_rangeFits : RangeFits fourZgc := by
  intro first last hf hl
  have hf' : ipToInt fourZgc.ipStart = .ok 0x0a000001 := by decide +kernel
  have hl' : ipToInt fourZgc.ipEnd = .ok 0x0a000004 := by decide +kernel
  obtain rfl := Except.ok.inj (hf'.symm.trans hf)
  obtain rfl := Except.ok.inj (hl'.symm.trans hl)
  decide

theorem joinAndLeave_fits {op : NodeOp} (hop : op ∈ twoJoin ++ [NodeOp.delete "1".toList]) {w : World}
    (hw : w.zgcs = [fourZgc]) : NodeCall.Fits .default (fun _ => twoItfs) (fun _ => false, op) w := by
  refine ⟨fun z b p hj _ _ => ⟨⟨⟨1, 8300, 0, xdpFwd⟩, ?_, by decide⟩, fun _ r hr => ?_, fun _ _ => rfl⟩,
    fun _ _ _ _ => rfl⟩
  · have hb : b.infTenant = "eth1".toList := by
      rcases List.mem_append.1 hop with hop | hop
      · rw [twoJoin, List.mem_pair] at hop
        rcases hop with rfl | rfl <;> rw [← hj.1] <;> rfl
      · rw [List.mem_singleton.1 hop] at hj
        exact hj.elim
    rw [hb]
    rfl
  · rw [hw] at hr
    rw [List.mem_singleton.1 (List.mem_of_find?_eq_some hr)]
    exact fourZgc_rangeFits

/-- What the removal sends to the node that stays is installed. -/
theorem run_requests_installed_sample :
    let u := runCalls .default (joinAndLeave.take 2) (.start fourZgc (.int 8300))
    let v := runCalls .default (joinAndLeave.take 3) (.start fourZgc (.int 8300))
    ∀ c ∈ v.itfConfs.drop u.itfConfs.length,
      Installed .cast twoItfs c.2 ∧ Recorded v.kube c ∧ (RowsUnique .default [] →
        Runs.EachStep (callStep .default) (NodeCall.Mirrors .default) (joinAndLeave.take 3)
          (.start fourZgc (.int 8300)) → RowsRecorded .default v c) := by
  refine run_requests_installed .default .default rfl (fun _ => twoItfs) (.start fourZgc (.int 8300)) rfl
    joinAndLeave ⟨?_, ?_⟩ 2 (by decide)
  · exact joinAndLeave_fits (by decide) rfl
  · intro w hw
    obtain rfl := Option.some.inj hw
    refine ⟨joinAndLeave_fits (by decide) (by decide +kernel), fun w hw => ?_⟩
    obtain rfl := Option.some.inj hw
    exact ⟨joinAndLeave_fits (by decide) (by decide +kernel), fun _ _ => trivial⟩

/-- The ZGC 10.0.0.1 to 10.0.0.129. -/
def wideZgc : ZgcRow := ⟨"z".toList, dotted ![10, 0, 0, 1], dotted ![10, 0, 0, 129]⟩

/-- **The first node of a ZGC with 129 addresses refuses them**, and Kubernetes has them all. -/
theorem first_request_refused :
    let w := (NodeOp.post "1".toList (fourNode "Node_A" "172.16.0.1")).run .default
      (.start wideZgc (.int 8300))
    (w.itfConfs.map fun c => c.2.entrances.length) = [129] ∧
    (∀ c ∈ w.itfConfs, ∀ d stack m, trnRpcUpdateDroplet .cast c.2 d stack m = (false, m)) ∧
    (w.kube.objs.map fun d => d.body.spec.ip.length) = [129] := by
  refine ⟨by decide +kernel, fun c hc d stack m => ?_, by decide +kernel⟩
  have h : ∀ c ∈ ((NodeOp.post "1".toList (fourNode "Node_A" "172.16.0.1")).run .default
      (.start wideZgc (.int 8300))).itfConfs,
      (trnCliParseDroplet (c.2.toJson.map JsonNumber.cast.read)).toOption = none := by decide +kernel
  rw [trnRpcUpdateDroplet, trnCliUpdateDropletSubcmd]
  cases hp : trnCliParseDroplet (c.2.toJson.map JsonNumber.cast.read) with
  | error e => rfl
  | ok droplet => exact absurd ((congrArg Except.toOption hp).symm.trans (h c hc)) (Option.some_ne_none _)

end ArionDp
