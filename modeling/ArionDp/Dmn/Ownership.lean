import ArionDp.Dmn.Attachment
import ArionDp.Dmn.Loading

/-!
# Descriptors that the daemon passes

`trn_xdp_bpfmaps` remembers descriptors that belong to the object of the tenant's program, and
`ebpf_progs` those of the side programs. They are good as long as that object is open.

* `Owned`: the invariant between requests, `RpcCall.KeepsOwners`: the requests that keep it;
* `trnProgLoad_side`, `trnTransitXdpLoad_owned`: what loading leaves;
* **`descriptors_right`**: the runs of such requests, and `stale_descriptors`.
-/

namespace ArionDp

open Py Descriptors Wire

/-! ## Between requests -/

/-- The object of a side program is not that of a remembered map. -/
def SideApart (idx : Fin tranMaxProg) (s : Daemon) : Prop :=
  ∀ md, s.md = some md → ∀ o, (md.ebpfProgs idx).obj = some o → ∀ m, (s.bpfmaps m).map ≠ some o

/-- **The invariant**: with metadata, the objects of the remembered maps are open. -/
structure Owned (s : Daemon) : Prop extends Orderly s where
  mapped : ∀ md, s.md = some md → Mapped s
  apart : ∀ idx, SideApart idx s

/-- The object of a remembered map is open. -/
def MapOpen (m : MapName) (s : Daemon) : Prop :=
  ∀ o ∈ (s.bpfmaps m).map, (s.table.objects o).isSome = true

instance (m : MapName) (s : Daemon) : Decidable (MapOpen m s) :=
  inferInstanceAs (Decidable (∀ o ∈ (s.bpfmaps m).map, (s.table.objects o).isSome = true))

/-- **The requests that keep descriptors in order.** An endpoint request finds no descriptor, or one whose
object is open; a side program is not unloaded. -/
def RpcCall.KeepsOwners (c : RpcCall) (s : Daemon) : Prop :=
  match c.2 with
  | .unloadTransitXdpEbpf progIdx => s.md = none ∨ sideProg? progIdx = none
  | .updateEp batchLen => batchLen = 0 ∨ (s.bpfmaps .endpointsMap).fd < 0 ∨ MapOpen .endpointsMap s
  | .getEp | .deleteEp => (s.bpfmaps .endpointsMap).fd < 0 ∨ MapOpen .endpointsMap s
  | _ => True

instance : ∀ (c : RpcCall) (s : Daemon), Decidable (c.KeepsOwners s)
  | (_, .unloadTransitXdpEbpf progIdx), s =>
    inferInstanceAs (Decidable (s.md = none ∨ sideProg? progIdx = none))
  | (_, .updateEp batchLen), s => inferInstanceAs
    (Decidable (batchLen = 0 ∨ (s.bpfmaps .endpointsMap).fd < 0 ∨ MapOpen .endpointsMap s))
  | (_, .getEp), s | (_, .deleteEp), s =>
    inferInstanceAs (Decidable ((s.bpfmaps .endpointsMap).fd < 0 ∨ MapOpen .endpointsMap s))
  | (_, .loadTransitXdp ..), _ | (_, .unloadTransitXdp), _ | (_, .loadTransitXdpEbpf _), _
  | (_, .updateDroplet _), _ => isTrue trivial

section Owned

variable {s : Daemon} {k : Libbpf} {m : MapName}

/-- Without metadata only what is passed matters. -/
theorem Orderly.freeMd (h : Orderly s) : Owned { s with md := none } :=
  ⟨⟨h.table, h.registered, h.right⟩, fun _ hmd => (nomatch hmd), fun _ _ hmd => (nomatch hmd)⟩

theorem Owned.use (h : Owned s) {u : Use BpfFile} (hu : u.Right) :
    Owned { s with uses := s.uses ++ [u] } := ⟨h.toOrderly.use hu, h.mapped, h.apart⟩

theorem MapOpen.has (h : MapOpen m s) : ∀ o, (s.bpfmaps m).map = some o → s.table.Has o [] := by
  intro o ho
  obtain ⟨l, hl⟩ := Option.isSome_iff_exists.1 (h o ho)
  exact ⟨l, hl, List.nil_subset l⟩

theorem Mapped.mapOpen (h : Mapped s) (m : MapName) : MapOpen m s := by
  intro o ho
  obtain ⟨l, hl, -⟩ := h m o ho
  exact hl ▸ rfl

/-- A call with the descriptor of a map whose object is open. -/
theorem bpfMapCall_spec {P : Daemon → Prop} {fd : ℤ} {c : Call}
    (h : ∀ s, P s → Orderly s ∧ MapOpen m s ∧ (s.bpfmaps m).fd = fd ∧ 0 ≤ fd)
    (huse : ∀ s u, P s → u.Right → P { s with uses := s.uses ++ [u] }) :
    Keeps P (bpfMapCall k fd m c) := by
  refine Keeps.bind (Keeps.modifyState fun s hs => huse s _ hs ?_) fun _ => keeps_callLibbpf c
  obtain ⟨hsound, hopen, rfl, hfd⟩ := h s hs
  exact hsound.right_map hfd hopen.has

/-- The state in which a map request has found its descriptor. -/
structure HasCtx (m : MapName) (fd : ℤ) (s : Daemon) : Prop extends Owned s where
  mapOpen : MapOpen m s
  eq : (s.bpfmaps m).fd = fd
  nonneg : 0 ≤ fd

theorem HasCtx.use {fd : ℤ} (h : HasCtx m fd s) {u : Use BpfFile} (hu : u.Right) :
    HasCtx m fd { s with uses := s.uses ++ [u] } := ⟨h.toOwned.use hu, h.mapOpen, h.eq, h.nonneg⟩

theorem bpfMapCall_hasCtx {fd : ℤ} (c : Call) : Keeps (HasCtx m fd) (bpfMapCall k fd m c) :=
  bpfMapCall_spec (fun _ h => ⟨h.toOrderly, h.mapOpen, h.eq, h.nonneg⟩) fun _ _ h hu => h.use hu

theorem getCtx_spec : Triple (fun s => Owned s ∧ ((s.bpfmaps m).fd < 0 ∨ MapOpen m s)) (getCtx m)
    (HasCtx m) fun _ => Owned := by
  refine Triple.bind (Q := fun fd s => (Owned s ∧ ((s.bpfmaps m).fd < 0 ∨ MapOpen m s)) ∧
    (s.bpfmaps m).fd = fd) (Triple.bind Triple.getState fun s => Triple.pure fun t ht =>
    ⟨ht.2, ht.1 ▸ rfl⟩) fun fd => Triple.ite (fun _ => Triple.raise fun s h => h.1.1) fun hfd =>
    Triple.pure fun s h => ?_
  obtain ⟨⟨hs, hor⟩, rfl⟩ := h
  exact ⟨hs, hor.resolve_left hfd, rfl, Int.not_lt.1 hfd⟩

/-- **A request for a map whose object is open, or that has no descriptor.** -/
theorem mapRequest_spec {f : ℤ → Svc Unit} (hf : ∀ fd, Keeps (HasCtx m fd) (f fd)) :
    Triple (fun s => Owned s ∧ ((s.bpfmaps m).fd < 0 ∨ MapOpen m s)) (getCtx m >>= f)
      (fun _ => Owned) fun _ => Owned :=
  Triple.bind getCtx_spec fun fd => (hf fd).conseq (fun _ h => h) (fun _ _ h => h.toOwned)
    fun _ _ h => h.toOwned

end Owned

/-! ## Side programs -/

/-- The object of a program in a state where the program is the same. -/
theorem ObjIs.of_others {p q : ProgRef} {s t : Daemon} {obj : Option ℕ} (h : ObjIs q obj s)
    (ho : t.others p = s.others p) (hq : q ≠ p) : ObjIs q obj t := by
  intro md hmd
  obtain ⟨md₀, hmd₀, hget⟩ := get_of_others ho hq hmd
  rw [← hget]
  exact h md₀ hmd₀

/-- A side program of a new object is apart. -/
theorem SideApart.of_objIs {idx : Fin tranMaxProg} {s : Daemon} {obj : Option ℕ}
    (h : ObjIs (.side idx) obj s) (ho : ∀ o, obj = some o → ∀ m, (s.bpfmaps m).map ≠ some o) :
    SideApart idx s := fun md hmd o hobj => ho o ((h md hmd).symm.trans hobj)

/-- A side program that is the same is apart, while the remembered maps are. -/
theorem SideApart.of_others {idx jdx : Fin tranMaxProg} {s t : Daemon} (h : SideApart jdx s)
    (ho : t.others (.side idx) = s.others (.side idx)) (hm : t.bpfmaps = s.bpfmaps) (hj : jdx ≠ idx) :
    SideApart jdx t := by
  intro md hmd o hobj
  obtain ⟨md₀, hmd₀, hget⟩ := get_of_others (q := .side jdx) ho (fun hc => hj (ProgRef.side.inj hc)) hmd
  rw [hm]
  exact h md₀ hmd₀ o ((congrArg TrnProg.obj hget).trans hobj)

/-- **What loading a side program leaves**: the program has an object and its descriptor, and other
objects keep theirs. -/
structure SideLoaded (idx : Fin tranMaxProg) (s₀ s : Daemon) : Prop extends Owned s where
  prog : ∃ n, ObjIs (.side idx) (some n) s ∧ ProgRight (.side idx) n s
  maps : s.bpfmaps = s₀.bpfmaps
  others : s.others (.side idx) = s₀.others (.side idx)
  kept : ∀ o ps, s₀.table.Has o ps → (∀ md, s₀.md = some md → (md.ebpfProgs idx).obj ≠ some o) →
    s.table.Has o ps

/-- **Loading a side program keeps the invariant.** -/
theorem trnProgLoad_side {k : Libbpf} {idx : Fin tranMaxProg} {s₀ : Daemon} (h : Owned s₀) :
    Triple (fun t => t = s₀) (trnProgLoad k (.side idx)) (fun _ => SideLoaded idx s₀) fun _ => Owned := by
  cases hmd : s₀.md with
  | none =>
    refine Triple.bind_raises (getMd_spec.conseq (fun _ ht => ht) (fun _ t ht => ?_) fun _ t ht => ht.2 ▸ h)
    obtain ⟨hsome, rfl⟩ := ht
    cases hmd.symm.trans hsome
  | some md => ?_
  have hload := trnProgLoad_spec (k := k) (p := .side idx) (K := fun o ps =>
    s₀.table.Has o ps ∧ ∀ md, s₀.md = some md → (md.ebpfProgs idx).obj ≠ some o)
  have hmaps := (quiet_trnProgLoad (k := k) (bpfmaps_ignores idx)).keeps s₀.bpfmaps
  have hothers := (quiet_trnProgLoad (k := k) (others_ignores (.side idx))).keeps (s₀.others _)
  refine ((hload.frame hmaps).frame hothers).conseq (fun t ht => ?_) (fun _ t ht => ?_) fun _ t ht => ?_
  · subst ht
    refine ⟨⟨⟨⟨h.toOrderly, h.mapped md hmd, fun o ps hK => hK.1, fun m hm => absurd hm List.not_mem_nil⟩,
      fun md' hmd' o hobj => ⟨h.apart idx md' hmd' o hobj, fun ps hK => hK.2 md' hmd' hobj⟩⟩, rfl⟩, rfl⟩
  · obtain ⟨⟨⟨n, hn⟩, hm⟩, ho⟩ := ht
    refine ⟨⟨hn.toOrderly, fun _ _ => hn.mapped, fun jdx => ?_⟩, ⟨n, hn.obj, hn.prog⟩, hm, ho,
      fun o ps hhas hobj => (hn.kept o ps ⟨hhas, hobj⟩).1⟩
    by_cases hj : jdx = idx
    · subst hj
      exact .of_objIs hn.obj fun o hno => Option.some.inj hno ▸ hn.apart rfl
    · exact (h.apart jdx).of_others ho hm hj
  · obtain ⟨⟨hf, hm⟩, ho⟩ := ht
    refine ⟨hf.toOrderly, fun _ _ => hf.mapped rfl, fun jdx => ?_⟩
    by_cases hj : jdx = idx
    · subst hj
      exact .of_objIs hf.obj fun o hno => nomatch hno
    · exact (h.apart jdx).of_others ho hm hj

theorem ProgRight.right {p : ProgRef} {n : ℕ} {s : Daemon} (h : ProgRight p n s) (hs : Orderly s)
    {md : UserMetadata} (hmd : s.md = some md) : (s.table.pass (p.get md).progFd (.prog p.idx)).Right := by
  obtain ⟨i, hi, hfd⟩ := h
  rw [hfd md hmd]
  exact hs.table.right hi

section Adding

variable {k : Libbpf} {md : UserMetadata} {idxs : List (Fin tranMaxProg)} {m : MapName} {fd : ℤ} {s : Daemon}

/-- A function has read the metadata, in which the side programs have their descriptors, and has found the
descriptor of a map. -/
structure Adding (md : UserMetadata) (idxs : List (Fin tranMaxProg)) (m : MapName) (fd : ℤ) (s : Daemon) :
    Prop extends HasCtx m fd s where
  md : s.md = some md
  progs : ∀ idx ∈ idxs, ∃ n, ProgRight (.side idx) n s

theorem Owned.adding (h : Owned s) (hmd : s.md = some md)
    (hprogs : ∀ idx ∈ idxs, ∃ n, ProgRight (.side idx) n s) (hfd : (s.bpfmaps m).fd = fd)
    (hn : ¬ fd < 0) : Adding md idxs m fd s :=
  ⟨⟨h, (h.mapped md hmd).mapOpen m, hfd, Int.not_lt.1 hn⟩, hmd, hprogs⟩

theorem Adding.use (h : Adding md idxs m fd s) {u : Use BpfFile} (hu : u.Right) :
    Adding md idxs m fd { s with uses := s.uses ++ [u] } := ⟨h.toHasCtx.use hu, h.md, h.progs⟩

theorem bpfMapCall_adding (c : Call) : Keeps (Adding md idxs m fd) (bpfMapCall k fd m c) :=
  bpfMapCall_spec (fun _ h => ⟨h.toOrderly, h.mapOpen, h.eq, h.nonneg⟩) fun _ _ h hu => h.use hu

/-- **A program that is added to the jump table has its descriptor.** -/
theorem updateJmpTable_adding {idx : Fin tranMaxProg} (hidx : idx ∈ idxs) :
    Keeps (Adding md idxs .jmpTable fd) (updateJmpTable k fd idx (md.ebpfProgs idx).progFd) := by
  refine Keeps.bind (Keeps.modifyState fun s h => h.use ?_) fun _ => bpfMapCall_adding _
  obtain ⟨n, hn⟩ := h.progs idx hidx
  exact hn.right h.toOrderly h.md

end Adding

/-- The descriptor of a map is the one that is remembered. -/
theorem trnTransitMapGetFd_spec {P : Daemon → Prop} (m : MapName) :
    Triple P (trnTransitMapGetFd m) (fun fd s => (s.bpfmaps m).fd = fd ∧ P s) fun _ => P :=
  Triple.bind Triple.getState fun _ => Triple.pure fun _ ht => ⟨ht.1 ▸ rfl, ht.2⟩

/-- **Loading a side program and adding it to the jump table.** -/
theorem trnTransitEbpfLoad_owned {k : Libbpf} (progIdx : ℤ) : Keeps Owned (trnTransitEbpfLoad k progIdx) := by
  refine Triple.bind (getMd_spec.exc fun _ _ h => h.2) fun md => ?_
  cases sideProg? progIdx with
  | none => exact Triple.raise fun _ h => h.2
  | some idx =>
    have hload : Triple (fun s => s.md = some md ∧ Owned s) (trnProgLoad k (.side idx))
        (fun _ s => Owned s ∧ ∀ jdx ∈ [idx], ∃ n, ProgRight (.side jdx) n s) fun _ => Owned := by
      refine Triple.named fun s₀ h => (trnProgLoad_side h.2).post fun _ s hs => ⟨hs.toOwned, fun jdx hj => ?_⟩
      obtain rfl := List.mem_singleton.1 hj
      exact hs.prog.imp fun n hn => hn.2
    refine Triple.bind hload fun _ => Triple.bind ((trnTransitMapGetFd_spec .jmpTable).exc fun _ _ h => h.1)
      fun fd => Triple.ite (fun _ => Triple.raise fun _ h => h.2.1) fun hfd =>
      Triple.bind (getMd_spec.exc fun _ _ h => h.2.2.1) fun md => ?_
    refine (updateJmpTable_adding (List.mem_singleton_self idx)).conseq (fun s h => ?_)
      (fun _ _ h => h.toOwned) fun _ _ h => h.toOwned
    exact h.2.2.1.adding h.1 h.2.2.2 h.2.1 hfd

/-! ## The transit program -/

/-- What the invariant depends on. -/
def Daemon.owners (s : Daemon) : Table BpfFile × (MapName → TrnXdpMap) × List (Use BpfFile) ×
    Option (Fin tranMaxProg → TrnProg) := (s.table, s.bpfmaps, s.uses, s.md.map fun md => md.ebpfProgs)

theorem Owned.of_owners {s t : Daemon} (h : Owned s) (hst : t.owners = s.owners) : Owned t := by
  obtain ⟨ht, hm, hu, hmd⟩ : t.table = s.table ∧ t.bpfmaps = s.bpfmaps ∧ t.uses = s.uses ∧
      t.md.map (fun md => md.ebpfProgs) = s.md.map fun md => md.ebpfProgs := by
    simpa only [Daemon.owners, Prod.mk.injEq] using hst
  -- metadata that is there now was there before, with the same side programs
  have hold : ∀ md, t.md = some md → ∃ md₀, s.md = some md₀ ∧ md₀.ebpfProgs = md.ebpfProgs := by
    intro md h'
    rw [h'] at hmd
    exact Option.map_eq_some_iff.1 hmd.symm
  refine ⟨⟨ht ▸ h.table, ht ▸ hm ▸ h.registered, hu ▸ h.right⟩, fun md h' => ?_, fun idx md h' o ho => ?_⟩
  · obtain ⟨md₀, h₀, -⟩ := hold md h'
    intro m o ho
    rw [ht]
    exact h.mapped md₀ h₀ m o (hm ▸ ho)
  · obtain ⟨md₀, h₀, hprogs⟩ := hold md h'
    rw [hm]
    exact h.apart idx md₀ h₀ o (hprogs ▸ ho)

/-- **A function that does not touch descriptors keeps the invariant.** -/
theorem Quiet.owned {α : Type} {c : Svc α} (hc : Quiet Daemon.owners c) : Keeps Owned c :=
  hc.inv fun _ _ hst hs => hs.of_owners hst

/-- What a change of the metadata leaves, if it is none of the side programs. -/
theorem owners_setMd (s : Daemon) {f : UserMetadata → UserMetadata}
    (hf : ∀ md, (f md).ebpfProgs = md.ebpfProgs) :
    Daemon.owners { s with md := s.md.map f } = s.owners := by
  have hmd : (s.md.map f).map (fun md => md.ebpfProgs) = s.md.map fun md => md.ebpfProgs := by
    rw [Option.map_map]
    exact congrArg (Option.map · s.md) (funext hf)
  exact congrArg (fun x => (s.table, s.bpfmaps, s.uses, x)) hmd

section Transit

variable {k : Libbpf}

/-- Attaching the program touches no descriptor. -/
theorem quiet_attachMain (i : Fin tranItfMapMax) : Quiet Daemon.owners (attachMain k i) :=
  .bind quiet_getMd fun _ => .bind (.bind (quiet_callLibbpf _) fun _ => .modifyState fun _ => rfl) fun _ =>
    .bind (.bind (quiet_callLibbpf _) fun _ => .bind .getState fun _ => .pure _) fun _ =>
    .modifyState fun s => owners_setMd s fun _ => rfl

/-- Detaching the program touches no descriptor. -/
theorem quiet_detachMain (md : UserMetadata) (i : Fin tranItfMapMax) :
    Quiet Daemon.owners (detachMain k md i) :=
  .bind (.bind (quiet_callLibbpf _) fun _ => .bind .getState fun _ => .pure _) fun _ =>
    .bind (.ite (.ite (.pure ()) (.modifyState fun _ => rfl)) (.pure ())) fun _ =>
    .bind (quiet_callLibbpf _) fun _ => .modifyState fun _ => rfl

/-- While the programs of the interfaces are loaded: those to come and the side programs have no object,
and a shared map that has an object has a remembered descriptor too. -/
structure Begun (todo : List (Fin tranItfMapMax)) (s : Daemon) : Prop extends Orderly s where
  mapped : Mapped s
  own : ∀ m, m.shared = true → (s.bpfmaps m).fd < 0 → (s.bpfmaps m).map = none
  mains : ∀ i ∈ todo, ObjIs (.main i) none s
  sides : ∀ idx, ObjIs (.side idx) none s

variable {todo : List (Fin tranItfMapMax)} {i : Fin tranItfMapMax}

/-- A change of the metadata that is none of an object. -/
theorem ObjIs.setMd {p : ProgRef} {s : Daemon} {obj : Option ℕ} (h : ObjIs p obj s)
    {f : UserMetadata → UserMetadata} (hf : ∀ md, (p.get (f md)).obj = (p.get md).obj) :
    ObjIs p obj { s with md := s.md.map f } := by
  intro md hmd
  obtain ⟨md', hmd', rfl⟩ := Option.map_eq_some_iff.1 hmd
  rw [hf]
  exact h md' hmd'

theorem Begun.setMd {s : Daemon} (h : Begun todo s) {f : UserMetadata → UserMetadata}
    (hf : ∀ p md, (ProgRef.get p (f md)).obj = (p.get md).obj) :
    Begun todo { s with md := s.md.map f } where
  toOrderly := ⟨h.table, h.registered, h.right⟩
  mapped := h.mapped
  own := h.own
  mains i hi := (h.mains i hi).setMd (hf _)
  sides idx := (h.sides idx).setMd (hf _)

theorem mem_all (m : MapName) : m ∈ MapName.all := by cases m <;> decide

/-- **Loading the program of an interface.** -/
theorem trnProgLoad_main (hi : i ∉ todo) : Triple (Begun (i :: todo)) (trnProgLoad k (.main i))
    (fun _ s => Begun todo s ∧ Shared MapName.all s) fun _ => Orderly := by
  refine Triple.named fun s₀ h => ?_
  have hload := trnProgLoad_spec (k := k) (p := .main i) (K := fun _ _ => False)
  have hothers := (quiet_trnProgLoad (k := k) (others_ignores (.main i))).keeps (s₀.others _)
  refine (hload.frame hothers).conseq (fun t ht => ?_) (fun _ t ht => ?_) fun _ t ht => ht.1.toOrderly
  · subst ht
    refine ⟨⟨⟨h.toOrderly, h.mapped, fun _ _ hK => hK.elim, fun m _ => h.own m⟩, fun md hmd o hobj => ?_⟩, rfl⟩
    exact nomatch (h.mains i (List.mem_cons_self ..) md hmd).symm.trans hobj
  · obtain ⟨⟨n, hn⟩, ho⟩ := ht
    refine ⟨⟨hn.toOrderly, hn.mapped, fun m hs hfd => ?_, fun j hj => ?_, fun idx => ?_⟩, hn.shared⟩
    · exact absurd (hn.shared m (mem_all m) hs) (Int.not_le.2 hfd)
    · exact (h.mains j (List.mem_cons_of_mem _ hj)).of_others ho fun hc =>
        hi (ProgRef.main.inj hc ▸ hj)
    · exact (h.sides idx).of_others ho ProgRef.noConfusion

theorem loadMain_spec {interfaces : Fin tranItfMapMax → List Char} {iboPort : U16} (hi : i ∉ todo) :
    Triple (Begun (i :: todo)) (loadMain k interfaces iboPort i)
      (fun _ s => Begun todo s ∧ Shared MapName.all s) fun _ => Orderly := by
  refine Triple.ite (fun _ => Triple.raise fun _ h => h.toOrderly) fun _ =>
    Triple.bind (Q := fun _ => Begun (i :: todo)) (Triple.modifyState fun s h => h.setMd fun p md => ?_)
    fun _ => Triple.bind (Q := fun _ => Begun (i :: todo)) (Triple.modifyState fun s h =>
    h.setMd fun p md => ?_) fun _ => trnProgLoad_main hi
  · cases p with
    | main j =>
      change (if j = i then TrnXdpObject.mk _ _ else md.objs j).xdp.obj = (md.objs j).xdp.obj
      split_ifs <;> rfl
    | side idx => rfl
  · by_cases hp : p = .main i
    · rw [hp, ProgRef.get_update]
    · rw [ProgRef.get_update_ne hp]

/-- **With the side programs that are done**: each has an object and its descriptor, and the others have no
object. -/
structure Assembled (done : List (Fin tranMaxProg)) (s : Daemon) : Prop extends Owned s where
  loaded : ∀ idx ∈ done, ∃ n, ObjIs (.side idx) (some n) s ∧ ProgRight (.side idx) n s
  rest : ∀ idx ∉ done, ObjIs (.side idx) none s

/-- One round of the loop over the side programs. -/
theorem trnProgLoad_assembled {done : List (Fin tranMaxProg)} {idx : Fin tranMaxProg} (hidx : idx ∉ done) :
    Triple (Assembled done) (trnProgLoad k (.side idx)) (fun _ => Assembled (done ++ [idx])) fun _ => Orderly := by
  refine Triple.named fun s₀ h => (trnProgLoad_side h.toOwned).conseq (fun _ ht => ht) (fun _ s hs => ?_)
    fun _ _ hs => hs.toOrderly
  have hother : ∀ {jdx}, jdx ≠ idx → ∀ {obj}, ObjIs (.side jdx) obj s₀ → ObjIs (.side jdx) obj s :=
    fun hj _ hobj => hobj.of_others hs.others fun hc => hj (ProgRef.side.inj hc)
  refine ⟨hs.toOwned, fun jdx hj => ?_, fun jdx hj => ?_⟩
  · rcases List.mem_append.1 hj with hj | hj
    · have hne : jdx ≠ idx := fun hc => hidx (hc ▸ hj)
      obtain ⟨n, hobj, i, hhas, hfd⟩ := h.loaded jdx hj
      refine ⟨n, hother hne hobj, i, hs.kept n _ hhas fun md hmd hc => ?_, fun md hmd => ?_⟩
      · exact nomatch (h.rest idx hidx md hmd).symm.trans hc
      · obtain ⟨md₀, hmd₀, hget⟩ := get_of_others (q := .side jdx) hs.others
          (fun hc => hne (ProgRef.side.inj hc)) hmd
        rw [← hget]
        exact hfd md₀ hmd₀
    · exact List.mem_singleton.1 hj ▸ hs.prog
  · rw [List.mem_append, not_or] at hj
    exact hother (fun hc => hj.2 (List.mem_singleton.2 hc)) (h.rest jdx hj.1)

/-- **Loading the side programs.** -/
theorem loadSides_spec : Triple (Assembled []) (forEach (fun idx => trnProgLoad k (.side idx)) sideProgs)
    (fun _ => Assembled sideProgs) fun _ => Orderly := by
  have hnodup : sideProgs.Nodup := by decide
  have hloop := Triple.forEach (E := fun _ => Orderly) (f := fun idx => trnProgLoad k (.side idx))
    (fun done todo s => done ++ todo = sideProgs ∧ Assembled done s) (fun done idx todo => ?_) [] sideProgs
  · exact hloop.conseq (fun s h => ⟨rfl, h⟩) (fun _ s h => h.2) fun _ _ h => h
  · refine Triple.assume (fun s h => h.1) fun heq => ?_
    have hidx : idx ∉ done := fun hc =>
      (List.nodup_append.1 (heq ▸ hnodup)).2.2 idx hc idx (List.mem_cons_self ..) rfl
    exact (trnProgLoad_assembled hidx).conseq (fun s h => h.2)
      (fun _ s h => ⟨by rw [List.append_assoc]; exact heq, h⟩) fun _ _ h => h

/-- Before the side programs are loaded. -/
theorem Begun.assembled {s : Daemon} (h : Begun [] s) : Assembled [] s where
  toOrderly := h.toOrderly
  mapped _ _ := h.mapped
  apart idx := .of_objIs (h.sides idx) fun _ ho => nomatch ho
  loaded _ hidx := absurd hidx List.not_mem_nil
  rest idx _ := h.sides idx

/-- **The maps are filled with descriptors that are right.** -/
theorem trnTransitXdpMapInitialize_spec : Triple (Assembled sideProgs) (trnTransitXdpMapInitialize k)
    (fun _ => Owned) fun _ => Owned := by
  refine Triple.bind (getMd_spec.exc fun _ _ h => h.2.toOwned) fun md =>
    Triple.bind ((trnTransitMapGetFd_spec .jmpTable).exc fun _ _ h => h.2.toOwned) fun fd =>
    Triple.ite (fun _ => Triple.raise fun _ h => h.2.2.toOwned) fun hfd =>
    Triple.bind (Q := fun _ => Adding md sideProgs .jmpTable fd) ?_ fun _ =>
    Triple.bind ((trnTransitMapGetFd_spec .interfacesMap).exc fun _ _ h => h.toOwned) fun fd' =>
    Triple.ite (fun _ => Triple.pure fun _ h => h.2.toOwned) fun hfd' => ?_
  · have hloop := Triple.forEach_done (E := fun _ => Adding md sideProgs .jmpTable fd)
      (fun _ => Adding md sideProgs .jmpTable fd) fun _ idx hidx => updateJmpTable_adding (k := k) hidx
    refine hloop.conseq (fun s h => ?_) (fun _ _ h => h) fun _ _ h => h.toOwned
    obtain ⟨heq, hmd, h⟩ := h
    exact h.toOwned.adding hmd (fun idx hidx => (h.loaded idx hidx).imp fun n hn => hn.2) heq hfd
  · have hloop := Keeps.forEach (I := Adding md sideProgs .interfacesMap fd')
      (fun i => bpfMapCall_adding (k := k) (.updateInterfaces i)) itfMaps
    refine hloop.conseq (fun s h => ?_) (fun _ _ h => h.toOwned) fun _ _ h => h.toOwned
    exact h.2.toOwned.adding h.2.md h.2.progs h.1 hfd'

theorem Quiet.shared {α : Type} {c : Svc α} (hc : Quiet Daemon.bpfmaps c) : Keeps (Shared MapName.all) c :=
  hc.inv fun _ _ hst hs m hm hshared => hst ▸ hs m hm hshared

/-- **Loading the programs.** -/
theorem loadPrograms_spec (interfaces : Fin tranItfMapMax → List Char) (iboPort : U16) :
    Triple (Begun itfMaps) (loadPrograms k interfaces iboPort) (fun _ s => Owned s ∧ Shared MapName.all s)
      fun _ => Orderly := by
  have hmains : Triple (Begun itfMaps) (forEach (loadMain k interfaces iboPort) itfMaps)
      (fun _ s => Assembled [] s ∧ Shared MapName.all s) fun _ => Orderly :=
    Triple.bind (loadMain_spec (by decide)) fun _ => Triple.bind
      ((loadMain_spec List.not_mem_nil).pre fun _ h => h.1) fun _ => Triple.pure fun _ h => ⟨h.1.assembled, h.2⟩
  have hsides : Quiet Daemon.bpfmaps (forEach (fun idx => trnProgLoad k (.side idx)) sideProgs) :=
    .forEach fun idx _ => quiet_trnProgLoad (bpfmaps_ignores idx)
  have hinit : Quiet Daemon.bpfmaps (trnTransitXdpMapInitialize k) :=
    quiet_trnTransitXdpMapInitialize (bpfmaps_ignores 0)
  exact Triple.bind hmains fun _ => Triple.bind ((loadSides_spec.frame hsides.shared).exc fun _ _ h => h.1) fun _ =>
    (trnTransitXdpMapInitialize_spec.frame hinit.shared).exc fun _ _ h => h.1.toOrderly

/-- **Loading and attaching the programs.** -/
theorem loadAndAttach_spec (interfaces : Fin tranItfMapMax → List Char) (iboPort : U16) :
    Triple (Begun itfMaps) (loadAndAttach k interfaces iboPort) (fun _ s => Owned s ∧ Shared MapName.all s)
      fun _ => Orderly := by
  have hattach : Keeps (fun s => Owned s ∧ Shared MapName.all s) (forEach (attachMain k) itfMaps) := by
    refine Keeps.forEach (fun i => (quiet_attachMain i).inv fun s t hst hs => ⟨hs.1.of_owners hst, ?_⟩) _
    have hmaps : t.bpfmaps = s.bpfmaps := congrArg (fun x => x.2.1) hst
    exact fun m hm hshared => hmaps ▸ hs.2 m hm hshared
  exact Triple.bind (loadPrograms_spec interfaces iboPort) fun _ => Triple.bind
    (hattach.exc fun _ _ h => h.1.toOrderly) fun _ => Triple.modifyState fun s h =>
    ⟨h.1.of_owners (owners_setMd s fun _ => rfl), h.2⟩

/-- New metadata, before anything is loaded. -/
theorem Orderly.begun {s : Daemon} (h : Orderly s) (hmaps : s.bpfmaps = fun _ => ⟨-1, none⟩) :
    Begun itfMaps { s with md := some .zero } := by
  refine ⟨⟨h.table, h.registered, h.right⟩, fun m o ho => ?_, fun m _ _ => ?_, fun i _ md hmd => ?_,
    fun idx md hmd => ?_⟩
  · rw [hmaps] at ho
    cases ho
  · rw [hmaps]
  · exact Option.some.inj hmd ▸ rfl
  · exact Option.some.inj hmd ▸ rfl

/-- **Loading the transit program** keeps the invariant, and leaves descriptors of the shared maps. -/
theorem trnTransitXdpLoad_shared (interfaces : Fin tranItfMapMax → List Char) (iboPort : U16) :
    Triple (fun s => s.md = none ∧ Owned s) (trnTransitXdpLoad k interfaces iboPort)
      (fun _ s => Owned s ∧ Shared MapName.all s) fun _ => Owned := by
  refine Triple.bind Triple.getState fun s => Triple.assume (fun t ht => ht.1 ▸ ht.2.1) fun hmd => ?_
  rw [hmd]
  refine Triple.bind (Q := fun _ => Owned) ((keeps_callLibbpf _).pre fun _ h => h.2.2) fun _ =>
    Triple.bind (Q := fun _ s => Orderly s ∧ s.bpfmaps = fun _ => ⟨-1, none⟩)
    (Triple.modifyState fun s h => ?_) fun _ => Triple.bind (Q := fun _ => Begun itfMaps)
    (Triple.modifyState fun s h => h.1.begun h.2) fun _ =>
    Triple.tryExcept (loadAndAttach_spec interfaces iboPort) fun _ => ?_
  · exact ⟨⟨h.table, fun m i hi => (nomatch hi), h.right⟩, rfl⟩
  · exact Triple.bind (Q := fun _ => Owned) (Triple.modifyState fun s h => h.freeMd) fun _ =>
      Triple.raise fun _ h => h

theorem trnTransitXdpLoad_owned (interfaces : Fin tranItfMapMax → List Char) (iboPort : U16) :
    Keeps Owned (trnTransitXdpLoad k interfaces iboPort) := by
  refine Triple.named fun s hs => ?_
  cases hmd : s.md with
  | some md =>
    intro t ht
    subst ht
    rw [trnTransitXdpLoad_again hmd]
    exact hs
  | none =>
    exact (trnTransitXdpLoad_shared interfaces iboPort).conseq (fun t ht => ht ▸ ⟨hmd, hs⟩) (fun _ _ h => h.1)
      fun _ _ h => h

/-- Closing an object leaves a sound state. -/
theorem bpfObjectClose_orderly {E : Unit → Daemon → Prop} (obj : Option ℕ) :
    Triple Orderly (bpfObjectClose obj) (fun _ => Orderly) E := by
  cases obj with
  | none => exact Triple.pure fun _ h => h
  | some o =>
    refine Triple.modifyState fun s h => ?_
    exact h.later (h.table.closeObject o) (Table.later_closeObject _ o)

/-- **Unloading the transit program keeps the invariant.** -/
theorem trnTransitXdpUnload_owned : Keeps Owned (trnTransitXdpUnload k) := by
  refine Triple.bind Triple.getState fun s => ?_
  cases s.md with
  | none => exact Triple.pure fun t ht => ht.2
  | some md =>
    refine Triple.bind (Q := fun _ => Owned) ((Keeps.forEach (fun i => (quiet_detachMain md i).owned)
      itfMaps).pre fun _ h => h.2) fun _ =>
      Triple.bind (Q := fun _ => Owned) (Triple.modifyState fun s h => h.of_owners rfl) fun _ => ?_
    refine Triple.bind ((Triple.forEach_inv (fun idx => bpfObjectClose_orderly _) sideProgs).pre
      fun _ h => h.toOrderly) fun _ => Triple.bind (Q := fun _ => Orderly)
      (Triple.forEach_inv (fun i => bpfObjectClose_orderly _) itfMaps) fun _ => ?_
    exact Triple.modifyState fun s h => h.freeMd

end Transit

/-! ## Requests -/

/-- A side program is unloaded only where that is refused. -/
theorem trnTransitEbpfUnload_refused {k : Libbpf} {progIdx : ℤ} {s₀ : Daemon} (h : Owned s₀)
    (hc : s₀.md = none ∨ sideProg? progIdx = none) :
    Triple (fun s => s = s₀) (trnTransitEbpfUnload k progIdx) (fun _ => Owned) fun _ => Owned := by
  refine Triple.bind (Q := fun md s => s.md = some md ∧ s = s₀) (getMd_spec.exc fun _ _ ht => ht.2 ▸ h)
    fun md => ?_
  rcases hc with hc | hc
  · refine Triple.assume (p := False) (fun s ht => ?_) False.elim
    obtain ⟨hmd, rfl⟩ := ht
    cases hc.symm.trans hmd
  · rw [hc]
    exact Triple.raise fun _ ht => ht.2 ▸ h

/-- The context of an interface comes with metadata. -/
theorem md_of_trnGetItfContext {s : Daemon} {ifNametoindex : List Char → U32} {interface : List Char}
    {eth : TrnIface} (h : trnGetItfContext (s.transitd ifNametoindex) interface = some eth) :
    ∃ md, s.md = some md := by
  cases hmd : s.md with
  | none =>
    have hnone : (s.transitd ifNametoindex).md = none := congrArg (Option.map _) hmd
    rw [trnGetItfContext, hnone] at h
    cases h
  | some md => exact ⟨md, rfl⟩

theorem updateDropletSvc_owned {k : Libbpf} (interface : List Char) :
    Keeps Owned (updateDropletSvc k interface) := by
  refine Triple.bind Triple.getState fun s => ?_
  cases hctx : trnGetItfContext (s.transitd k.ifNametoindex) interface with
  | none => exact Triple.raise fun _ ht => ht.2
  | some eth =>
    obtain ⟨md, hmd⟩ := md_of_trnGetItfContext hctx
    refine (mapRequest_spec fun fd => bpfMapCall_hasCtx _).pre fun t ht => ?_
    obtain ⟨rfl, h⟩ := ht
    exact ⟨h, .inr ((h.mapped md hmd).mapOpen _)⟩

/-- **A request that keeps descriptors in order keeps the invariant.** -/
theorem RpcCall.run_owned {c : RpcCall} {s : Daemon} (hs : Owned s) (hc : c.KeepsOwners s) :
    Owned (c.run s) := by
  obtain ⟨k, r⟩ := c
  cases r with
  | loadTransitXdp interfaces iboPort => exact (trnTransitXdpLoad_owned interfaces iboPort).final hs
  | unloadTransitXdp => exact trnTransitXdpUnload_owned.final hs
  | loadTransitXdpEbpf progIdx => exact (trnTransitEbpfLoad_owned progIdx).final hs
  | unloadTransitXdpEbpf progIdx => exact (trnTransitEbpfUnload_refused hs hc).final rfl
  | updateEp batchLen =>
    rcases hc with hlen | hc
    · subst hlen
      exact (Keeps.bind (quiet_getCtx _).keepsAll fun fd => Keeps.pure ()).final hs
    · exact (mapRequest_spec fun fd => Keeps.forEach (fun i => bpfMapCall_hasCtx _) _).final ⟨hs, hc⟩
  | getEp => exact (mapRequest_spec fun fd => bpfMapCall_hasCtx _).final ⟨hs, hc⟩
  | deleteEp =>
    exact (mapRequest_spec fun fd => Keeps.bind (bpfMapCall_hasCtx _) fun _ =>
      bpfMapCall_hasCtx _).final ⟨hs, hc⟩
  | updateDroplet interface => exact (updateDropletSvc_owned interface).final hs

theorem Daemon.Starts.owned {s : Daemon} (h : s.Starts) : Owned s where
  table := ⟨fun o l hl => (nomatch (h.objects o).symm.trans hl), fun o _ => h.objects o⟩
  registered m i hi := by
    rw [h.bpfmaps m] at hi
    cases hi
  right u hu := by
    rw [h.uses] at hu
    cases hu
  mapped md hmd := nomatch h.md.symm.trans hmd
  apart idx md hmd := nomatch h.md.symm.trans hmd

/-- **Descriptors that are passed are right.** In a run of requests that keep descriptors in order,
whatever libbpf does, each descriptor is open where it is passed, and stands for what it is passed for. -/
theorem descriptors_right (s : Daemon) (h : s.Starts) (cs : List RpcCall)
    (hcs : Runs.EachStep rpcStep RpcCall.KeepsOwners cs s) : ∀ u ∈ (runRpcs cs s).uses, u.Right := by
  have hrun : Owned (runRpcs cs s) := by
    refine Runs.run_inv (I := Owned) (fun c s s' hs hc hs' => ?_) (run_rpcStep cs s) hcs h.owned
    obtain rfl := Option.some.inj hs'
    exact RpcCall.run_owned hs hc
  exact hrun.right

/-! ## Samples -/

/-- The number of the first side program goes to the second one. -/
def Libbpf.reusing : Libbpf :=
  { Libbpf.smooth with number := fun c => if c = .load (.side 2) then 61 else Libbpf.smooth.number c }

/-- A load that fails where it attaches the program, an endpoint request, a load that succeeds, a side program
that cannot be loaded again, and an endpoint request. -/
def loadAndServe : List RpcCall := [(.smoothBut (.attach 0), loadEth), (.smooth, .getEp), (.smooth, loadEth),
  (.smoothBut (.load (.side 1)), .loadTransitXdpEbpf 1), (.smoothBut .deleteEndpoint, .deleteEp)]

theorem descriptors_right_sample :
    ((runRpcs loadAndServe .start).uses.all fun u => u.Right) = true := by
  have hsteps : Runs.EachStep rpcStep RpcCall.KeepsOwners loadAndServe .start := by decide +kernel
  exact List.all_eq_true.2 fun u hu => decide_eq_true
    (descriptors_right .start Daemon.start_starts loadAndServe hsteps u hu)

/-- **Descriptors that are passed are not all right**: unloading a side program closes its descriptor twice,
an endpoint request after an unload has the closed descriptor of `endpoints_map`, and after a load that has
failed unloading a side program closes the descriptor of another one. -/
theorem stale_descriptors :
    let unloaded := runRpcs [(.smooth, loadEth), (.smooth, .unloadTransitXdpEbpf 1)] .start
    let served := runRpcs [(.smooth, loadEth), (.smooth, .unloadTransitXdp), (.smooth, .getEp)] .start
    let reused := runRpcs [(.smooth, loadEth), (.smoothBut (.openFile (.side 1)), .loadTransitXdpEbpf 1),
      (.reusing, .loadTransitXdpEbpf 2), (.smooth, .unloadTransitXdpEbpf 1)] .start
    ¬ (∀ u ∈ unloaded.uses, u.Right) ∧ ¬ (∀ u ∈ served.uses, u.Right) ∧
      ⟨.prog 1, some (.prog 2)⟩ ∈ reused.uses := by
  refine ⟨?_, ?_, ?_⟩ <;> decide +kernel

end ArionDp
