import ArionDp.Dmn.Frames

/-!
# Attached programs

Loading ends at one label, which frees the metadata but takes no program off an interface, and
unloading attaches each program again after it has detached it.

* `link_ignores`: what is attached, and whether there is metadata;
* `RpcCall.Detaches`: the requests after which a daemon without metadata has nothing attached;
* **`unloaded_means_detached`**: the runs of such requests, and `unloaded_but_attached`.
-/

namespace ArionDp

open Py Descriptors Wire

/-! ## Requests that are not about the transit program -/

/-- What is attached, and whether there is metadata. -/
def Daemon.link (s : Daemon) : (U32 → Option ℕ) × Bool := (s.attached, s.md.isSome)

/-- Loading an object neither attaches anything nor makes or frees the metadata. -/
theorem link_ignores (p : ProgRef) : Ignores Daemon.link p where
  table _ _ := rfl
  uses _ _ := rfl
  pins _ _ := rfl
  maps _ _ _ := rfl
  prog _ _ := Prod.ext rfl Option.isSome_map

theorem quiet_loadPrograms {k : Libbpf} (interfaces : Fin tranItfMapMax → List Char) (iboPort : U16) :
    Quiet Daemon.link (loadPrograms k interfaces iboPort) := by
  refine .bind (.forEach fun i _ => .ite (.raise ()) (.bind (.modifyState fun _ => ?_) fun _ =>
    .bind (quiet_setProg (link_ignores (.main i)) _) fun _ => quiet_trnProgLoad (link_ignores _))) fun _ =>
    .bind (.forEach fun _ _ => quiet_trnProgLoad (link_ignores _)) fun _ =>
    quiet_trnTransitXdpMapInitialize (link_ignores (.main 0))
  exact Prod.ext rfl Option.isSome_map

/-! ## Requests -/

/-- **Without metadata nothing is attached.** -/
def Detached (s : Daemon) : Prop := s.md = none → ∀ i, s.attached i = none

/-- **The requests that keep a daemon without metadata detached.** Once the program is attached to the
tenant interface, nothing fails that comes after it; with metadata, unloading fails on an interface. -/
def RpcCall.Detaches (c : RpcCall) (s : Daemon) : Prop :=
  match c.2 with
  | .loadTransitXdp _ _ => s.md = none → c.1.fails (.attach 0) = true ∨
      c.1.fails (.getInfo 0) = false ∧ c.1.fails (.attach 1) = false ∧ c.1.fails (.getInfo 1) = false
  | .unloadTransitXdp => s.md = none ∨
      ∃ i, c.1.fails (.queryId i) = true ∨ c.1.fails (.reattach i) = true
  | _ => True

section Steps

variable {k : Libbpf}

theorem Quiet.detached {α : Type} {c : Svc α} (hc : Quiet Daemon.link c) : Keeps Detached c := by
  refine hc.inv fun s t hst hs hmd => ?_
  obtain ⟨ha, hm⟩ := Prod.mk.inj hst
  rw [ha]
  exact hs (Option.not_isSome_iff_eq_none.1 (hm ▸ Option.not_isSome_iff_eq_none.2 hmd))

theorem callLibbpf_fails {c : Call} (h : k.fails c = true) {P : Daemon → Prop} :
    Triple P (callLibbpf k c) (fun _ _ => False) fun _ => P := by
  rw [callLibbpf, if_pos h]
  exact Triple.raise fun _ hs => hs

theorem callLibbpf_succeeds {c : Call} (h : k.fails c = false) {P : Daemon → Prop} :
    Triple P (callLibbpf k c) (fun _ => P) fun _ _ => False := by
  rw [callLibbpf, if_neg (h ▸ Bool.false_ne_true)]
  exact Triple.pure fun _ hs => hs

/-- Where there is metadata, it is found. -/
theorem getMd_succeeds : Triple (fun s => s.md.isSome = true) getMd (fun _ s => s.md.isSome = true)
    fun _ _ => False := by
  refine Triple.bind Triple.getState fun s => Triple.assume (fun t ht => ht.1 ▸ ht.2) fun hs => ?_
  obtain ⟨md, hmd⟩ := Option.isSome_iff_exists.1 hs
  rw [hmd]
  exact Triple.pure fun t ht => ht.2

/-- A round of the attachment changes nothing where attaching fails. -/
theorem attachMain_fails {i : Fin tranItfMapMax} (h : k.fails (.attach i) = true) {P : Daemon → Prop} :
    Triple P (attachMain k i) (fun _ _ => False) fun _ => P :=
  Triple.bind keeps_getMd fun _ => Triple.bind_raises (Triple.bind_raises (callLibbpf_fails h))

/-- A round of the attachment succeeds where its calls do. -/
theorem attachMain_succeeds {i : Fin tranItfMapMax} (ha : k.fails (.attach i) = false)
    (hg : k.fails (.getInfo i) = false) :
    Triple (fun s => s.md.isSome = true) (attachMain k i) (fun _ s => s.md.isSome = true)
      fun _ _ => False := by
  refine Triple.bind getMd_succeeds fun md => Triple.bind (Q := fun _ s => s.md.isSome = true) ?_ fun _ =>
    Triple.bind (Q := fun _ s => s.md.isSome = true) ?_ fun id => ?_
  · exact Triple.bind (callLibbpf_succeeds ha) fun _ => Triple.modifyState fun s hs => hs
  · exact Triple.bind (callLibbpf_succeeds hg) fun _ => Triple.bind Triple.getState fun s =>
      Triple.pure fun t ht => ht.2
  · exact Triple.modifyState fun s hs => Option.isSome_map.trans hs

/-- Nothing is attached. -/
def Bare (s : Daemon) : Prop := s.attached = fun _ => none

theorem Bare.detached {s : Daemon} (h : Bare s) : Detached s := fun _ i => congrFun h i

/-- Attaching leaves metadata, or nothing attached. -/
theorem loadAndAttach_detached {interfaces : Fin tranItfMapMax → List Char} {iboPort : U16}
    (hc : k.fails (.attach 0) = true ∨
      k.fails (.getInfo 0) = false ∧ k.fails (.attach 1) = false ∧ k.fails (.getInfo 1) = false) :
    Triple (fun s => Bare s ∧ s.md.isSome = true) (loadAndAttach k interfaces iboPort)
      (fun _ => Detached) fun _ => Bare := by
  have hload : Triple (fun s => Bare s ∧ s.md.isSome = true) (loadPrograms k interfaces iboPort)
      (fun _ s => Bare s ∧ s.md.isSome = true) fun _ => Bare := by
    have hkeeps : Keeps (fun s => Bare s ∧ s.md.isSome = true) (loadPrograms k interfaces iboPort) :=
      (quiet_loadPrograms interfaces iboPort).inv fun _ _ hst hs =>
        ⟨(congrArg Prod.fst hst).trans hs.1, (congrArg Prod.snd hst).trans hs.2⟩
    exact hkeeps.exc fun _ _ h => h.1
  have hattach : Triple (fun s => Bare s ∧ s.md.isSome = true) (forEach (attachMain k) itfMaps)
      (fun _ s => s.md.isSome = true) fun _ => Bare := by
    cases h₀ : k.fails (.attach 0) with
    | true =>
      exact Triple.bind_raises ((attachMain_fails h₀).conseq (fun _ h => h) (fun _ _ h => h.elim)
        fun _ _ h => h.1)
    | false =>
      obtain ⟨hg₀, h₁, hg₁⟩ := hc.resolve_left (h₀ ▸ Bool.false_ne_true)
      have hround : ∀ i, Triple (fun s => s.md.isSome = true) (attachMain k i)
          (fun _ s => s.md.isSome = true) fun _ _ => False
        | 0 => attachMain_succeeds h₀ hg₀
        | 1 => attachMain_succeeds h₁ hg₁
      exact (Triple.forEach_inv hround itfMaps).conseq (fun _ h => h.2) (fun _ _ h => h)
        fun _ _ h => h.elim
  refine Triple.bind hload fun _ => Triple.bind hattach fun _ => Triple.modifyState fun s h hmd => ?_
  rw [Option.map_eq_none_iff] at hmd
  rw [hmd] at h
  cases h

/-- **Loading**: without metadata at the end, nothing is attached. -/
theorem trnTransitXdpLoad_detached {interfaces : Fin tranItfMapMax → List Char} {iboPort : U16}
    (hc : k.fails (.attach 0) = true ∨
      k.fails (.getInfo 0) = false ∧ k.fails (.attach 1) = false ∧ k.fails (.getInfo 1) = false) :
    Triple (fun s => s.md = none ∧ Bare s) (trnTransitXdpLoad k interfaces iboPort)
      (fun _ => Detached) fun _ => Detached := by
  refine Triple.bind Triple.getState fun s => Triple.assume (fun t ht => ht.1 ▸ ht.2.1) fun hmd => ?_
  rw [hmd]
  refine Triple.bind (Q := fun _ => Bare) (Triple.conseq (keeps_callLibbpf _) (fun _ h => h.2.2)
    (fun _ _ h => h) fun _ _ h => h.detached) fun _ => ?_
  refine Triple.bind (Q := fun _ => Bare) (Triple.modifyState fun _ h => h) fun _ => ?_
  refine Triple.bind (Q := fun _ s => Bare s ∧ s.md.isSome = true)
    (Triple.modifyState fun _ h => ⟨h, rfl⟩) fun _ => ?_
  refine Triple.tryExcept (loadAndAttach_detached hc) fun _ => ?_
  exact Triple.bind (Q := fun _ => Bare) (Triple.modifyState fun _ h => h) fun _ =>
    Triple.raise fun _ h => h.detached

theorem bpfXdpQueryId_keeps (c : Call) (ifaceIndex : U32) :
    Keeps (fun s => s.md.isSome = true) (bpfXdpQueryId k c ifaceIndex) :=
  Keeps.bind (keeps_callLibbpf _) fun _ => Keeps.bind Keeps.getState fun _ => Keeps.pure _

theorem detachOwn_keeps (md : UserMetadata) (i : Fin tranItfMapMax) (id : ℕ) :
    Keeps (fun s => s.md.isSome = true) (detachOwn k md i id) :=
  Triple.ite (fun _ => Triple.ite (fun _ => Keeps.pure ()) fun _ => Keeps.modifyState fun _ h => h)
    fun _ => Keeps.pure ()

/-- A round of unloading keeps the metadata. -/
theorem detachMain_keeps (md : UserMetadata) (i : Fin tranItfMapMax) :
    Keeps (fun s => s.md.isSome = true) (detachMain k md i) :=
  Keeps.bind (bpfXdpQueryId_keeps _ _) fun id => Keeps.bind (detachOwn_keeps md i id) fun _ =>
    Keeps.bind (keeps_callLibbpf _) fun _ => Keeps.modifyState fun _ h => h

/-- A round of unloading fails where its calls do. -/
theorem detachMain_fails (md : UserMetadata) {i : Fin tranItfMapMax}
    (h : k.fails (.queryId i) = true ∨ k.fails (.reattach i) = true) :
    Triple (fun s => s.md.isSome = true) (detachMain k md i) (fun _ _ => False)
      fun _ s => s.md.isSome = true := by
  rcases h with h | h
  · exact Triple.bind_raises (Triple.bind_raises (callLibbpf_fails h))
  · exact Triple.bind (bpfXdpQueryId_keeps _ _) fun id => Triple.bind (detachOwn_keeps md i id) fun _ =>
      Triple.bind_raises (callLibbpf_fails h)

/-- **Unloading**: where it fails, the metadata stays. -/
theorem trnTransitXdpUnload_fails {i : Fin tranItfMapMax}
    (h : k.fails (.queryId i) = true ∨ k.fails (.reattach i) = true) :
    Triple (fun s => s.md.isSome = true) (trnTransitXdpUnload k) (fun _ _ => False)
      fun _ s => s.md.isSome = true := by
  have hmem : ∀ i : Fin tranItfMapMax, i ∈ itfMaps := by decide
  refine Triple.bind Triple.getState fun s =>
    Triple.assume (p := s.md.isSome = true) (fun t ht => ht.1 ▸ ht.2) fun hs => ?_
  obtain ⟨md, hmd⟩ := Option.isSome_iff_exists.1 hs
  rw [hmd]
  exact Triple.bind_raises ((Triple.forEach_raises (detachMain_keeps md) (detachMain_fails md h)
    (hmem i)).pre fun _ ht => ht.2)

/-- Loading again changes nothing. -/
theorem trnTransitXdpLoad_again {interfaces : Fin tranItfMapMax → List Char} {iboPort : U16} {s : Daemon}
    {md : UserMetadata} (hmd : s.md = some md) : trnTransitXdpLoad k interfaces iboPort s = (.ok (), s) := by
  rw [trnTransitXdpLoad, bind_run, getState_run]
  dsimp only
  rw [hmd]
  rfl

/-- Unloading changes nothing without metadata. -/
theorem trnTransitXdpUnload_again {s : Daemon} (hmd : s.md = none) :
    trnTransitXdpUnload k s = (.ok (), s) := by
  rw [trnTransitXdpUnload, bind_run, getState_run]
  dsimp only
  rw [hmd]
  rfl

/-- **A request that detaches keeps a daemon without metadata detached.** -/
theorem RpcCall.run_detached {c : RpcCall} {s : Daemon} (hs : Detached s) (hc : c.Detaches s) :
    Detached (c.run s) := by
  obtain ⟨k, r⟩ := c
  by_cases hl : ∃ interfaces iboPort, r = .loadTransitXdp interfaces iboPort
  · obtain ⟨interfaces, iboPort, rfl⟩ := hl
    change Detached (trnTransitXdpLoad k interfaces iboPort s).2
    cases hmd : s.md with
    | none =>
      exact (trnTransitXdpLoad_detached (hc hmd)).final (P := fun s => s.md = none ∧ Bare s)
        ⟨hmd, funext (hs hmd)⟩
    | some md =>
      rw [trnTransitXdpLoad_again hmd]
      exact hs
  by_cases hu : r = .unloadTransitXdp
  · subst hu
    change Detached (trnTransitXdpUnload k s).2
    cases hmd : s.md with
    | none =>
      rw [trnTransitXdpUnload_again hmd]
      exact hs
    | some md =>
      obtain ⟨i, h⟩ := hc.resolve_left (hmd ▸ Option.some_ne_none md)
      have hfinal : Triple (fun s : Daemon => s.md.isSome = true) (trnTransitXdpUnload k)
          (fun _ s => s.md.isSome = true) fun _ s => s.md.isSome = true :=
        (trnTransitXdpUnload_fails h).post fun _ _ ht => ht.elim
      have hsome := hfinal.final (s := s) (by rw [hmd]; rfl)
      exact fun hnone => absurd hnone (Option.isSome_iff_ne_none.1 hsome)
  · exact (Rpc.svc_quiet link_ignores (k := k) r (fun i p h => hl ⟨i, p, h⟩) hu).detached.final hs

end Steps

/-- **Unloaded means detached.** In a run of requests that detach, whatever else fails, no interface has
the program attached in a state without metadata. -/
theorem unloaded_means_detached (s : Daemon) (h : s.Starts) (cs : List RpcCall)
    (hcs : Runs.EachStep rpcStep RpcCall.Detaches cs s) (n : ℕ) :
    (runRpcs (cs.take n) s).md = none → ∀ i, (runRpcs (cs.take n) s).attached i = none := by
  refine Runs.run_inv (I := Detached) (fun c s s' hs hc hs' => ?_) (run_rpcStep (cs.take n) s) (hcs.take n)
    fun _ => h.attached
  obtain rfl := Option.some.inj hs'
  exact RpcCall.run_detached hs hc

/-! ## Samples -/

/-- No call fails, and descriptors that are open at the same time have different numbers. -/
def Libbpf.smooth : Libbpf where
  fails _ := false
  number
    | .createMap (.main i) m => 10 + 20 * i + MapName.all.idxOf m
    | .reuseFd (.main i) m => 10 + 20 * i + MapName.all.idxOf m
    | .load (.main i) => 29 + 20 * i
    | .load (.side idx) => 60 + idx
    | _ => 3
  ifNametoindex t := if t = "eth1".toList then 1 else if t = "eth2".toList then 2 else 0

/-- One call fails. -/
def Libbpf.smoothBut (c : Call) : Libbpf := { Libbpf.smooth with fails := fun c' => c' = c }

theorem Libbpf.smoothBut_fails (c : Call) : (Libbpf.smoothBut c).fails c = true := decide_eq_true rfl

/-- A daemon with no files and nothing attached. -/
def Daemon.start : Daemon where
  table := ⟨fun _ => none, fun _ => none, 0⟩
  pins _ := false
  attached _ := none
  bpfmaps _ := ⟨-1, none⟩
  md := none
  uses := []

theorem Daemon.start_starts : Daemon.start.Starts :=
  ⟨fun _ => rfl, fun _ => rfl, fun _ => rfl, rfl, rfl⟩

/-- Load the program on `eth1` and `eth2`. -/
def loadEth : Rpc := .loadTransitXdp ![ "eth1".toList, "eth2".toList] 8300

/-- A load that fails where it attaches the program to the tenant interface, one that succeeds, and an
unload that fails. -/
def loadTwice : List RpcCall := [(.smoothBut (.attach 0), loadEth), (.smooth, loadEth),
  (.smoothBut (.reattach 1), .unloadTransitXdp)]

theorem unloaded_means_detached_sample : (runRpcs (loadTwice.take 1) .start).attached = fun _ => none := by
  have hmd : (runRpcs (loadTwice.take 1) .start).md.isNone = true := by decide +kernel
  exact funext (unloaded_means_detached .start Daemon.start_starts loadTwice
    ⟨fun _ => .inl (Libbpf.smoothBut_fails _), fun _ _ => ⟨fun _ => .inr ⟨rfl, rfl, rfl⟩,
    fun _ _ => ⟨.inr ⟨1, .inr (Libbpf.smoothBut_fails _)⟩, fun _ _ => trivial⟩⟩⟩ 1
    (Option.isNone_iff_eq_none.1 hmd))

/-- **Without metadata the program stays attached**: after an unload that succeeds, and after a load that
fails when it asks for the id of the program it has just attached. -/
theorem unloaded_but_attached :
    let unloaded := runRpcs [(.smooth, loadEth), (.smooth, .unloadTransitXdp)] .start
    let failed := runRpcs [(.smoothBut (.getInfo 0), loadEth)] .start
    (unloaded.md.isNone = true ∧ (unloaded.attached 1).isSome = true ∧
      (unloaded.attached 2).isSome = true) ∧
    failed.md.isNone = true ∧ (failed.attached 1).isSome = true := by
  refine ⟨⟨?_, ?_, ?_⟩, ?_, ?_⟩ <;> decide +kernel

end ArionDp
