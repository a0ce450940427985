import ArionDp.Dmn.Attachment

/-!
# The interfaces that the daemon knows

The metadata has the two interfaces that the program was loaded on, and the requests for droplets look theirs up
there. A load answers with success also when there is metadata, and does nothing then.

* `Daemon.interfaces`: the part of the metadata that is about interfaces, and what leaves it alone;
* `Known`, **`trnTransitXdpLoad_known`**: a load leaves its interfaces, or no metadata;
* `RpcCall.run_interfaces`: what a request can do to the interfaces;
* **`interfaces_loaded`**: the load that the interfaces of a reachable state come from.
-/

namespace ArionDp

open Py Descriptors Wire

/-- The interfaces of the metadata, and whether it is ready. -/
def Daemon.interfaces (s : Daemon) : Option (Bool × (Fin tranItfMapMax → TrnIface)) :=
  s.md.map fun md => (md.ready, fun i => (md.objs i).eth)

/-- Loading an object leaves the interfaces alone. -/
theorem interfaces_ignores (p : ProgRef) : Ignores Daemon.interfaces p where
  table _ _ := rfl
  uses _ _ := rfl
  pins _ _ := rfl
  maps _ _ _ := rfl
  prog s g := by
    rw [Daemon.interfaces, Daemon.interfaces, Option.map_map]
    refine congrArg (Option.map · s.md) (funext fun md => ?_)
    cases p with
    | side idx => rfl
    | main i =>
      refine congrArg (Prod.mk md.ready) (funext fun j => ?_)
      change (if j = i then _ else md.objs j).eth = _
      split_ifs <;> rfl

/-! ## Loads -/

section Load

variable (k : Libbpf) (interfaces : Fin tranItfMapMax → List Char) (iboPort : U16)

/-- What a load stores for an interface. -/
def loadedEth (i : Fin tranItfMapMax) : TrnIface :=
  ⟨k.ifNametoindex (interfaces i), iboPort, (trnXdpItfDef i).1, (trnXdpItfDef i).2⟩

/-- The metadata has the interfaces of a load that are in a list. -/
def HasEth (l : List (Fin tranItfMapMax)) (s : Daemon) : Prop :=
  ∃ ready eth, s.interfaces = some (ready, eth) ∧
    ∀ i ∈ l, k.ifNametoindex (interfaces i) ≠ 0 ∧ eth i = loadedEth k interfaces iboPort i

/-- **The daemon knows the interfaces of a load**, and is ready. -/
structure Known (s : Daemon) : Prop where
  eth : s.interfaces = some (true, loadedEth k interfaces iboPort)
  exist : ∀ i, k.ifNametoindex (interfaces i) ≠ 0

variable {k interfaces iboPort} {l : List (Fin tranItfMapMax)}

theorem keeps_hasEth {α : Type} {c : Svc α} (hc : Quiet Daemon.interfaces c) :
    Keeps (HasEth k interfaces iboPort l) c :=
  hc.inv fun s t hst hs => by rwa [HasEth, hst]

theorem hasEth_setEth {i : Fin tranItfMapMax} (hi : k.ifNametoindex (interfaces i) ≠ 0) {s : Daemon}
    (hs : HasEth k interfaces iboPort l s) : HasEth k interfaces iboPort (l ++ [i])
      { s with md := s.md.map (UserMetadata.setEth i (loadedEth k interfaces iboPort i)) } := by
  obtain ⟨ready, eth, heth, hall⟩ := hs
  obtain ⟨md, hmd, hpair⟩ := Option.map_eq_some_iff.1 heth
  obtain ⟨rfl, rfl⟩ := Prod.mk.inj hpair
  refine ⟨md.ready, _, by rw [Daemon.interfaces, hmd]; rfl, fun j hj => ?_⟩
  change _ ∧ (if j = i then _ else md.objs j).eth = _
  by_cases hji : j = i
  · subst hji
    rw [if_pos rfl]
    exact ⟨hi, rfl⟩
  · rw [if_neg hji]
    refine hall j ((List.mem_append.1 hj).resolve_right fun h => hji (List.mem_singleton.1 h))

/-- A round of step 1 stores its interface. -/
theorem loadMain_hasEth (i : Fin tranItfMapMax) : Triple (HasEth k interfaces iboPort l)
    (loadMain k interfaces iboPort i) (fun _ => HasEth k interfaces iboPort (l ++ [i])) fun _ _ => True := by
  refine Triple.ite (fun _ => Triple.raise fun _ _ => trivial) fun hi => ?_
  refine Triple.bind (Q := fun _ => HasEth k interfaces iboPort (l ++ [i]))
    (Triple.modifyState fun s hs => hasEth_setEth hi hs) fun _ => ?_
  have hrest : Keeps (HasEth k interfaces iboPort (l ++ [i])) (do
      setProg (.main i) fun prog => { prog with pcapfile := interfaces i }
      trnProgLoad k (.main i)) :=
    keeps_hasEth (.bind (quiet_setProg (interfaces_ignores _) _) fun _ => quiet_trnProgLoad (interfaces_ignores _))
  exact hrest.exc fun _ _ _ => trivial

theorem interfaces_attachMain (i : Fin tranItfMapMax) : Quiet Daemon.interfaces (attachMain k i) :=
  .bind quiet_getMd fun _ => .bind (.bind (quiet_callLibbpf _) fun _ => .modifyState fun _ => rfl) fun _ =>
    .bind (.bind (quiet_callLibbpf _) fun _ => .bind .getState fun _ => .pure _) fun _ =>
      quiet_setProg (interfaces_ignores _) _

/-- What a load does with the new metadata leaves its interfaces there. -/
theorem loadAndAttach_known : Triple (HasEth k interfaces iboPort []) (loadAndAttach k interfaces iboPort)
    (fun _ => Known k interfaces iboPort) fun _ _ => True := by
  have hloop : Triple (HasEth k interfaces iboPort []) (forEach (loadMain k interfaces iboPort) itfMaps)
      (fun _ => HasEth k interfaces iboPort itfMaps) fun _ _ => True :=
    Triple.bind (loadMain_hasEth 0) fun _ => Triple.bind (loadMain_hasEth 1) fun _ => Triple.pure fun _ hs => hs
  have hrest : Keeps (HasEth k interfaces iboPort itfMaps) (do
      forEach (fun idx => trnProgLoad k (.side idx)) sideProgs
      trnTransitXdpMapInitialize k) :=
    keeps_hasEth (.bind (.forEach fun _ _ => quiet_trnProgLoad (interfaces_ignores _)) fun _ =>
      quiet_trnTransitXdpMapInitialize (interfaces_ignores (.main 0)))
  have hload : Triple (HasEth k interfaces iboPort []) (loadPrograms k interfaces iboPort)
      (fun _ => HasEth k interfaces iboPort itfMaps) fun _ _ => True :=
    Triple.bind hloop fun _ => hrest.exc fun _ _ _ => trivial
  have hattach : Keeps (HasEth k interfaces iboPort itfMaps) (forEach (attachMain k) itfMaps) :=
    keeps_hasEth (.forEach fun i _ => interfaces_attachMain i)
  refine Triple.bind hload fun _ => Triple.bind (hattach.exc fun _ _ _ => trivial) fun _ =>
    Triple.modifyState fun s hs => ?_
  obtain ⟨ready, eth, heth, hall⟩ := hs
  have hmem : ∀ i : Fin tranItfMapMax, i ∈ itfMaps := by decide
  obtain ⟨md, hmd, hpair⟩ := Option.map_eq_some_iff.1 heth
  obtain ⟨-, rfl⟩ := Prod.mk.inj hpair
  refine ⟨?_, fun i => (hall i (hmem i)).1⟩
  rw [Daemon.interfaces, hmd]
  exact congrArg some (congrArg (Prod.mk true) (funext fun i => (hall i (hmem i)).2))

/-- **A load leaves its interfaces, or no metadata.** -/
theorem trnTransitXdpLoad_known : Triple (fun s => s.md = none) (trnTransitXdpLoad k interfaces iboPort)
    (fun _ => Known k interfaces iboPort) fun _ s => s.md = none := by
  refine Triple.bind Triple.getState fun s => Triple.assume (fun t ht => ht.1 ▸ ht.2) fun hmd => ?_
  rw [hmd]
  refine Triple.bind (Q := fun _ s => s.md = none) (Triple.conseq (keeps_callLibbpf _) (fun _ h => h.2)
    (fun _ _ h => h) fun _ _ h => h) fun _ => ?_
  refine Triple.bind (Q := fun _ s => s.md = none) (Triple.modifyState fun _ h => h) fun _ => ?_
  refine Triple.bind (Q := fun _ => HasEth k interfaces iboPort [])
    (Triple.modifyState fun _ _ => ⟨_, _, rfl, nofun⟩) fun _ => ?_
  exact Triple.tryExcept loadAndAttach_known fun _ =>
    Triple.bind (Q := fun _ s => s.md = none) (Triple.modifyState fun _ _ => rfl) fun _ => Triple.raise fun _ h => h

end Load

/-! ## Unloading -/

theorem interfaces_detachMain {k : Libbpf} (md : UserMetadata) (i : Fin tranItfMapMax) :
    Quiet Daemon.interfaces (detachMain k md i) :=
  .bind (.bind (quiet_callLibbpf _) fun _ => .bind .getState fun _ => .pure _) fun _ =>
    .bind (.ite (.ite (.pure ()) (.modifyState fun _ => rfl)) (.pure ())) fun _ =>
      .bind (quiet_callLibbpf _) fun _ => .modifyState fun _ => rfl

/-- Unloading takes the interfaces away, or fails. -/
theorem trnTransitXdpUnload_interfaces {k : Libbpf} (v : Option (Bool × (Fin tranItfMapMax → TrnIface))) :
    Triple (fun s => s.interfaces = v) (trnTransitXdpUnload k) (fun _ s => s.interfaces = none)
      fun _ s => s.interfaces = v := by
  refine Triple.bind Triple.getState fun s => ?_
  cases hmd : s.md with
  | none =>
    refine Triple.pure fun t ht => ?_
    rw [← ht.1, Daemon.interfaces, hmd]
    rfl
  | some md =>
    have hclose (p : ProgRef) (obj : Option ℕ) : Quiet Daemon.interfaces (bpfObjectClose obj) :=
      quiet_bpfObjectClose (interfaces_ignores p) obj
    have hmain : Quiet Daemon.interfaces (forEach (detachMain k md) itfMaps) :=
      .forEach fun i _ => interfaces_detachMain md i
    have hpins : Quiet Daemon.interfaces (modifyState fun s : Daemon =>
        { s with pins := fun file => s.pins file && !unpinned k file }) := .modifyState fun _ => rfl
    have hside : Quiet Daemon.interfaces (forEach (fun idx => bpfObjectClose (md.ebpfProgs idx).obj) sideProgs) :=
      .forEach fun idx _ => hclose (.side idx) _
    have hobjs : Quiet Daemon.interfaces (forEach (fun i => bpfObjectClose (md.objs i).xdp.obj) itfMaps) :=
      .forEach fun i _ => hclose (.main i) _
    refine Triple.pre (P := fun t => t.interfaces = v) ?_ fun t ht => ht.2
    exact Triple.bind (hmain.keeps v) fun _ => Triple.bind (hpins.keeps v) fun _ => Triple.bind (hside.keeps v) fun _ =>
      Triple.bind (hobjs.keeps v) fun _ => Triple.modifyState fun _ _ => rfl

/-! ## Requests -/

/-- **What a request can do to the interfaces**: leave them, take them away, or load them where there are none. -/
theorem RpcCall.run_interfaces (c : RpcCall) (s : Daemon) :
    (c.run s).interfaces = s.interfaces ∨ (c.run s).interfaces = none ∨
      ∃ interfaces iboPort, c.2 = .loadTransitXdp interfaces iboPort ∧ s.md = none ∧
        Known c.1 interfaces iboPort (c.run s) := by
  obtain ⟨k, r⟩ := c
  by_cases hl : ∃ interfaces iboPort, r = .loadTransitXdp interfaces iboPort
  · obtain ⟨interfaces, iboPort, rfl⟩ := hl
    change (trnTransitXdpLoad k interfaces iboPort s).2.interfaces = _ ∨ _
    cases hmd : s.md with
    | some md =>
      rw [trnTransitXdpLoad_again hmd]
      exact .inl rfl
    | none =>
      refine .inr (Triple.final (I := fun t => t.interfaces = none ∨ ∃ i p,
        Rpc.loadTransitXdp interfaces iboPort = .loadTransitXdp i p ∧
          (none : Option UserMetadata) = none ∧ Known k i p t)
        (trnTransitXdpLoad_known.conseq (fun _ h => h) (fun _ t ht => .inr ⟨_, _, rfl, rfl, ht⟩) fun _ t ht => .inl ?_)
        hmd)
      rw [Daemon.interfaces, ht]
      rfl
  by_cases hu : r = .unloadTransitXdp
  · subst hu
    have hunload : Triple (fun t => t.interfaces = s.interfaces) (trnTransitXdpUnload k)
        (fun _ t => t.interfaces = s.interfaces ∨ t.interfaces = none)
        fun _ t => t.interfaces = s.interfaces ∨ t.interfaces = none :=
      (trnTransitXdpUnload_interfaces s.interfaces).conseq (fun _ h => h) (fun _ _ h => .inr h) fun _ _ h => .inl h
    exact (hunload.final rfl).imp_right .inl
  · exact .inl (((Rpc.svc_quiet interfaces_ignores (k := k) r (fun i p h => hl ⟨i, p, h⟩) hu).keeps
      s.interfaces).final rfl)

/-- A state after requests whose interfaces come from one of them: there was no metadata before it, and always since. -/
def LoadedBy (s : Daemon) (cs : List RpcCall) : Prop :=
  ∃ pre k interfaces iboPort post, cs = pre ++ (k, .loadTransitXdp interfaces iboPort) :: post ∧
    (runRpcs pre s).md = none ∧
    (∀ post', post' <+: post → (runRpcs (pre ++ (k, .loadTransitXdp interfaces iboPort) :: post') s).md.isSome) ∧
    Known k interfaces iboPort (runRpcs cs s)

theorem interfaces_eq_none {s : Daemon} : s.interfaces = none ↔ s.md = none := Option.map_eq_none_iff

theorem Known.isSome {k : Libbpf} {interfaces : Fin tranItfMapMax → List Char} {iboPort : U16} {s : Daemon}
    (h : Known k interfaces iboPort s) : s.md.isSome := by
  rw [← Option.isSome_map, ← Daemon.interfaces, h.eth]
  rfl

/-- The interface that a droplet is about: the tenant's one first, if both have the index. -/
theorem Known.itfContext {k : Libbpf} {interfaces : Fin tranItfMapMax → List Char} {iboPort : U16} {s : Daemon}
    (h : Known k interfaces iboPort s) (ifNametoindex : List Char → U32) (itf : List Char) :
    trnGetItfContext (s.transitd ifNametoindex) itf =
      if ifNametoindex itf = 0 then none
      else if k.ifNametoindex (interfaces 0) = ifNametoindex itf then some (loadedEth k interfaces iboPort 0)
      else if k.ifNametoindex (interfaces 1) = ifNametoindex itf then some (loadedEth k interfaces iboPort 1)
      else none := by
  obtain ⟨md, hmd, hpair⟩ := Option.map_eq_some_iff.1 h.eth
  have heth : (fun i => (md.objs i).eth) = loadedEth k interfaces iboPort := (Prod.mk.inj hpair).2
  have htransitd : (s.transitd ifNametoindex).md = some (loadedEth k interfaces iboPort) := by
    rw [Daemon.transitd, hmd, ← heth]
    rfl
  have hlist : (List.finRange tranItfMapMax).map (loadedEth k interfaces iboPort) =
      [loadedEth k interfaces iboPort 0, loadedEth k interfaces iboPort 1] := rfl
  rw [trnGetItfContext, htransitd]
  dsimp only
  rw [hlist]
  refine if_congr Iff.rfl rfl ?_
  rw [List.find?_cons, List.find?_cons, List.find?_nil]
  change (match decide (k.ifNametoindex (interfaces 0) = ifNametoindex itf) with
    | true => _ | false => match decide (k.ifNametoindex (interfaces 1) = ifNametoindex itf) with
      | true => _ | false => _) = _
  by_cases h₀ : k.ifNametoindex (interfaces 0) = ifNametoindex itf
  · rw [if_pos h₀, decide_eq_true h₀]
  · rw [if_neg h₀, decide_eq_false h₀]
    by_cases h₁ : k.ifNametoindex (interfaces 1) = ifNametoindex itf
    · rw [if_pos h₁, decide_eq_true h₁]
    · rw [if_neg h₁, decide_eq_false h₁]

theorem runRpcs_concat (cs : List RpcCall) (c : RpcCall) (s : Daemon) : runRpcs (cs ++ [c]) s = c.run (runRpcs cs s) :=
  List.foldl_concat ..

/-- A request that leaves the interfaces alone. -/
theorem LoadedBy.concat {s : Daemon} {cs : List RpcCall} (h : LoadedBy s cs) {c : RpcCall}
    (hc : (c.run (runRpcs cs s)).interfaces = (runRpcs cs s).interfaces) : LoadedBy s (cs ++ [c]) := by
  obtain ⟨pre, k, interfaces, iboPort, post, rfl, hpre, hpost, hknown⟩ := h
  have hknown' : Known k interfaces iboPort
      (runRpcs (pre ++ (k, .loadTransitXdp interfaces iboPort) :: post ++ [c]) s) := by
    rw [runRpcs_concat]
    exact ⟨hc.trans hknown.eth, hknown.exist⟩
  refine ⟨pre, k, interfaces, iboPort, post ++ [c], by rw [List.append_assoc]; rfl, hpre, fun post' hpost' => ?_,
    hknown'⟩
  rcases List.prefix_concat_iff.1 hpost' with rfl | hpost'
  · have hlast := hknown'.isSome
    rwa [List.append_assoc] at hlast
  · exact hpost post' hpost'

/-- **Where the interfaces of the daemon come from.** After any requests to a daemon that has loaded nothing, however
their calls come out, there is no metadata, or its interfaces are those of one load request: both exist, with the port
of the request, the tenant's for forwarding and the other one for the FTN. There was no metadata before that request,
and there has always been some since. -/
theorem interfaces_loaded {s : Daemon} (hs : s.md = none) (cs : List RpcCall) :
    (runRpcs cs s).md = none ∨ LoadedBy s cs := by
  induction cs using List.reverseRecOn with
  | nil => exact .inl hs
  | append_singleton cs c ih =>
    rw [runRpcs_concat]
    rcases c.run_interfaces (runRpcs cs s) with hsame | hnone | ⟨interfaces, iboPort, hload, hmd, hknown⟩
    · rcases ih with hmd | hloaded
      · exact .inl (interfaces_eq_none.1 (hsame.trans (interfaces_eq_none.2 hmd)))
      · exact .inr (hloaded.concat hsame)
    · exact .inl (interfaces_eq_none.1 hnone)
    · obtain ⟨k, r⟩ := c
      obtain rfl : r = .loadTransitXdp interfaces iboPort := hload
      rw [← runRpcs_concat] at hknown
      refine .inr ⟨cs, k, interfaces, iboPort, [], rfl, hmd, fun post' hpost' => ?_, hknown⟩
      rw [List.prefix_nil.1 hpost']
      exact hknown.isSome

/-- A load, another one with the interfaces the other way round, and a batch of endpoints. -/
def loadAgain : List RpcCall := [(.smooth, loadEth),
  (.smooth, .loadTransitXdp ![ "eth2".toList, "eth1".toList] 9000), (.smooth, .updateEp 3)]

theorem interfaces_loaded_again : LoadedBy .start loadAgain := by
  have hsome : (runRpcs loadAgain .start).md.isSome = true := by decide +kernel
  refine (interfaces_loaded (s := .start) rfl loadAgain).resolve_left fun h => ?_
  rw [h] at hsome
  cases hsome

end ArionDp
