import ArionDp.Dmn.XdpUsr

/-!
# What loading an object leaves alone

`trn_prog_load` changes descriptors, pins, `trn_xdp_bpfmaps` and one program of the metadata. Whatever
does not depend on these is the same after it, however its calls come out.

* `Quiet`: a function keeps part of the state, with a rule for each construct;
* `Ignores`: the parts that do not depend on what loading an object changes;
* **`quiet_trnProgLoad`**, and `others_ignores`: the other programs of the metadata;
* `Rpc.svc_quiet`: the requests that neither load nor unload the transit program.
-/

namespace ArionDp

open Py Descriptors

/-- A function keeps a part of the state, whether it returns or raises. -/
structure Quiet {α γ : Type} (f : Daemon → γ) (c : Svc α) : Prop where
  keeps : ∀ v, Keeps (fun s => f s = v) c

section Rules

variable {α β γ : Type} {f : Daemon → γ}

theorem Quiet.pure (a : α) : Quiet f (pure a : Svc α) := ⟨fun _ => Keeps.pure a⟩

theorem Quiet.raise (e : Unit) : Quiet f (raise e : Svc α) := ⟨fun _ => Keeps.raise e⟩

theorem Quiet.getState : Quiet f (getState : Svc Daemon) := ⟨fun _ => Keeps.getState⟩

theorem Quiet.bind {c : Svc α} {g : α → Svc β} (hc : Quiet f c) (hg : ∀ a, Quiet f (g a)) :
    Quiet f (c >>= g) := ⟨fun v => Keeps.bind (hc.keeps v) fun a => (hg a).keeps v⟩

theorem Quiet.modifyState {g : Daemon → Daemon} (h : ∀ s, f (g s) = f s) :
    Quiet f (modifyState g : Svc Unit) := ⟨fun _ => Keeps.modifyState fun s hs => (h s).trans hs⟩

theorem Quiet.ite {p : Prop} [Decidable p] {c d : Svc α} (hc : Quiet f c) (hd : Quiet f d) :
    Quiet f (if p then c else d) :=
  ⟨fun v => Triple.ite (fun _ => hc.keeps v) fun _ => hd.keeps v⟩

theorem Quiet.forEach {g : α → Svc Unit} {as : List α} (h : ∀ a ∈ as, Quiet f (g a)) :
    Quiet f (forEach g as) := by
  induction as with
  | nil => exact .pure ()
  | cons a as ih =>
    exact .bind (h a (List.mem_cons_self ..)) fun _ => ih fun b hb => h b (List.mem_cons_of_mem _ hb)

theorem Quiet.tryExcept {c d : Svc α} (hc : Quiet f c) (hd : Quiet f d) :
    Quiet f (tryExcept c fun _ => some d) := by
  refine ⟨fun v => Keeps.tryExcept (hc.keeps v) fun _ d' hd' => ?_⟩
  obtain rfl := Option.mem_some_iff.1 hd'
  exact hd.keeps v

/-- **Frame**: what depends on a part alone is kept with it. -/
theorem Quiet.inv {c : Svc α} (hc : Quiet f c) {I : Daemon → Prop} (hI : ∀ s t, f t = f s → I s → I t) :
    Keeps I c := Keeps.frame hc.keeps hI

theorem quiet_callLibbpf {k : Libbpf} (c : Call) : Quiet f (callLibbpf k c) :=
  .ite (.raise ()) (.pure ())

theorem quiet_trnTransitMapGetFd (m : MapName) : Quiet f (trnTransitMapGetFd m) :=
  .bind .getState fun _ => .pure _

theorem quiet_getMd : Quiet f getMd := by
  refine .bind .getState fun s => ?_
  cases s.md with
  | none => exact .raise ()
  | some md => exact .pure md

theorem quiet_getCtx (m : MapName) : Quiet f (getCtx m) :=
  .bind (quiet_trnTransitMapGetFd m) fun _ => .ite (.raise ()) (.pure _)

/-- A function that keeps the whole state keeps every assertion. -/
theorem Quiet.keepsAll {c : Svc α} (hc : Quiet id c) {P : Daemon → Prop} : Keeps P c :=
  hc.inv fun s t (hst : t = s) hs => by rwa [hst]

theorem keeps_callLibbpf {P : Daemon → Prop} {k : Libbpf} (c : Call) : Keeps P (callLibbpf k c) :=
  (quiet_callLibbpf c).keepsAll

theorem keeps_getMd {P : Daemon → Prop} : Keeps P getMd := quiet_getMd.keepsAll

end Rules

/-- A part of the state that does not depend on what loading an object changes. -/
structure Ignores {γ : Type} (f : Daemon → γ) (p : ProgRef) : Prop where
  table : ∀ s t, f { s with table := t } = f s
  uses : ∀ s l, f { s with uses := l } = f s
  pins : ∀ s b, f { s with pins := b } = f s
  maps : p.maps ≠ [] → ∀ s b, f { s with bpfmaps := b } = f s
  prog : ∀ s g, f { s with md := s.md.map (p.update g) } = f s

section Load

variable {γ : Type} {f : Daemon → γ} {p : ProgRef} (h : Ignores f p) {k : Libbpf}

include h

theorem quiet_giveFd (o : ℕ) (part refers : BpfFile) (c : Call) : Quiet f (giveFd k o part refers c) := by
  refine .bind .getState fun s => ?_
  split
  · exact .raise ()
  · exact .modifyState fun s => h.table s _

theorem quiet_bpfObjectClose (obj : Option ℕ) : Quiet f (bpfObjectClose obj) := by
  cases obj with
  | none => exact .pure ()
  | some o => exact .modifyState fun s => h.table s _

theorem quiet_passFd (fd : ℤ) (names : BpfFile) : Quiet f (passFd fd names) :=
  .modifyState fun s => h.uses s _

theorem quiet_bpfMapCall (fd : ℤ) (m : MapName) (c : Call) : Quiet f (bpfMapCall k fd m c) :=
  .bind (quiet_passFd h ..) fun _ => quiet_callLibbpf c

theorem quiet_closeFd (fd : ℤ) (names : BpfFile) : Quiet f (closeFd fd names) :=
  .bind (quiet_passFd h ..) fun _ => .modifyState fun s => h.table s _

theorem quiet_setProg (g : TrnProg → TrnProg) : Quiet f (setProg p g) :=
  .modifyState fun s => h.prog s g

theorem quiet_trnTransitXdpPreLoad (o : ℕ) : Quiet f (trnTransitXdpPreLoad k p o) := by
  refine .bind (quiet_callLibbpf _) fun _ => .forEach fun m hm => .bind (.modifyState fun s => ?_) fun _ =>
    .bind (quiet_trnTransitMapGetFd m) fun fd => .ite ?_ (.pure ())
  · exact h.maps (List.ne_nil_of_mem hm) s _
  · refine .bind (quiet_callLibbpf _) fun _ => .bind .getState fun s => ?_
    split
    · exact .raise ()
    · exact quiet_giveFd h ..

theorem quiet_bpfObjectLoad (o : ℕ) : Quiet f (bpfObjectLoad k p o) :=
  .bind (quiet_callLibbpf _) fun _ => .bind (.forEach fun _ _ => .bind .getState fun _ =>
    .ite (quiet_giveFd h ..) (.pure ())) fun _ => quiet_giveFd h ..

theorem quiet_pinMap (m : MapName) (pinfile : PinFile) : Quiet f (pinMap k p m pinfile) := by
  refine .tryExcept (.bind (.bind (quiet_callLibbpf _) fun _ => .bind .getState fun s => ?_)
    fun _ => quiet_closeFd h ..) (.bind (quiet_callLibbpf _) fun _ => .bind .getState fun s => ?_)
  · refine .ite ?_ (.raise ())
    split
    · exact .raise ()
    · exact .bind (.modifyState fun s => h.table s _) fun _ => .pure _
  · exact .ite (.raise ()) (.modifyState fun s => h.pins s _)

theorem quiet_trnTransitXdpPostLoad (o : ℕ) : Quiet f (trnTransitXdpPostLoad k p o) :=
  .bind (quiet_callLibbpf _) fun _ => .bind .getState fun _ => .bind (quiet_setProg h _) fun _ =>
    .forEach fun m hm => .bind quiet_getMd fun _ => .bind (quiet_pinMap h m _) fun _ => .bind .getState fun _ =>
      .ite (.modifyState fun s => h.maps (List.ne_nil_of_mem hm) s _) (.pure ())

/-- **Loading an object keeps what does not depend on it.** -/
theorem quiet_trnProgLoad : Quiet f (trnProgLoad k p) := by
  refine .bind quiet_getMd fun md => .bind (quiet_bpfObjectClose h _) fun _ => .bind (.tryExcept ?_ ?_)
    fun o => .bind (quiet_setProg h _) fun _ => .tryExcept ?_ ?_
  · exact .bind (quiet_callLibbpf _) fun _ => .bind .getState fun _ =>
      .bind (.modifyState fun s => h.table s _) fun _ => .pure _
  · exact .bind (quiet_setProg h _) fun _ => .raise ()
  · exact .bind (quiet_trnTransitXdpPreLoad h o) fun _ => .bind (quiet_bpfObjectLoad h o) fun _ =>
      quiet_trnTransitXdpPostLoad h o
  · exact .bind (quiet_bpfObjectClose h _) fun _ => .bind (quiet_setProg h _) fun _ => .raise ()

theorem quiet_updateJmpTable (fd : ℤ) (idx : Fin tranMaxProg) (progFd : ℤ) : Quiet f (updateJmpTable k fd idx progFd) :=
  .bind (quiet_passFd h ..) fun _ => quiet_bpfMapCall h ..

theorem quiet_trnTransitXdpMapInitialize : Quiet f (trnTransitXdpMapInitialize k) :=
  .bind quiet_getMd fun _ => .bind (quiet_trnTransitMapGetFd _) fun _ => .ite (.raise ())
    (.bind (.forEach fun _ _ => quiet_updateJmpTable h ..) fun _ => .bind (quiet_trnTransitMapGetFd _) fun _ =>
      .ite (.pure ()) (.forEach fun _ _ => quiet_bpfMapCall h ..))

end Load

/-! ## Requests that load or unload nothing -/

section Requests

variable {γ : Type} {f : Daemon → γ} (h : ∀ p, Ignores f p) {k : Libbpf}

include h

/-- **Requests that neither load nor unload the transit program** keep what loading an object ignores. -/
theorem Rpc.svc_quiet (r : Rpc) (hl : ∀ interfaces iboPort, r ≠ .loadTransitXdp interfaces iboPort)
    (hu : r ≠ .unloadTransitXdp) : Quiet f (r.svc k) := by
  have hcall (fd : ℤ) (m : MapName) (c : Call) : Quiet f (bpfMapCall k fd m c) := quiet_bpfMapCall (h (.main 0)) ..
  cases r with
  | loadTransitXdp interfaces iboPort => exact absurd rfl (hl interfaces iboPort)
  | unloadTransitXdp => exact absurd rfl hu
  | loadTransitXdpEbpf progIdx =>
    refine .bind quiet_getMd fun _ => ?_
    split
    · exact .raise ()
    · exact .bind (quiet_trnProgLoad (h _)) fun _ => .bind (quiet_trnTransitMapGetFd _) fun _ =>
        .ite (.raise ()) (.bind quiet_getMd fun _ => quiet_updateJmpTable (h (.main 0)) ..)
  | unloadTransitXdpEbpf progIdx =>
    refine .bind quiet_getMd fun _ => ?_
    split
    · exact .raise ()
    · rename_i idx _
      refine .bind (quiet_trnTransitMapGetFd _) fun _ => .ite (.raise ()) ?_
      exact .bind (.tryExcept (hcall ..) (.pure ())) fun _ => .bind (quiet_bpfObjectClose (h (.side idx)) _) fun _ =>
        .bind (quiet_setProg (h (.side idx)) _) fun _ => .bind (quiet_closeFd (h (.side idx)) ..) fun _ =>
        quiet_setProg (h (.side idx)) _
  | updateEp batchLen => exact .bind (quiet_getCtx _) fun _ => .forEach fun _ _ => hcall ..
  | getEp => exact .bind (quiet_getCtx _) fun _ => hcall ..
  | deleteEp => exact .bind (quiet_getCtx _) fun _ => .bind (hcall ..) fun _ => hcall ..
  | updateDroplet interface =>
    refine .bind .getState fun s => ?_
    split
    · exact .raise ()
    · exact .bind (quiet_getCtx _) fun _ => hcall ..

end Requests

/-! ## Other programs -/

theorem ProgRef.get_update (p : ProgRef) (f : TrnProg → TrnProg) (md : UserMetadata) :
    p.get (p.update f md) = f (p.get md) := by
  cases p with
  | main i => exact congrArg TrnXdpObject.xdp (if_pos rfl)
  | side idx => exact if_pos rfl

theorem ProgRef.get_update_ne {p q : ProgRef} (h : q ≠ p) (f : TrnProg → TrnProg) (md : UserMetadata) :
    q.get (p.update f md) = q.get md := by
  cases p with
  | main i =>
    cases q with
    | main j => exact congrArg TrnXdpObject.xdp (if_neg fun hij => h (congrArg ProgRef.main hij))
    | side jdx => rfl
  | side idx =>
    cases q with
    | main j => rfl
    | side jdx => exact if_neg fun hij => h (congrArg ProgRef.side hij)

/-- The programs of the metadata but one. -/
def Daemon.others (p : ProgRef) (s : Daemon) : { q // q ≠ p } → Option TrnProg := fun q => s.md.map q.1.get

theorem others_ignores (p : ProgRef) : Ignores (Daemon.others p) p where
  table _ _ := rfl
  uses _ _ := rfl
  pins _ _ := rfl
  maps _ _ _ := rfl
  prog s g := by
    funext q
    change (s.md.map (p.update g)).map q.1.get = s.md.map q.1.get
    rw [Option.map_map]
    exact congrArg (Option.map · s.md) (funext fun md => ProgRef.get_update_ne q.2 g md)

/-- The side programs have no maps. -/
theorem bpfmaps_ignores (idx : Fin tranMaxProg) : Ignores Daemon.bpfmaps (.side idx) where
  table _ _ := rfl
  uses _ _ := rfl
  pins _ _ := rfl
  maps h := absurd rfl h
  prog _ _ := rfl

/-- Where another program is the same, there was metadata with it. -/
theorem get_of_others {p q : ProgRef} {s t : Daemon} (h : t.others p = s.others p) (hq : q ≠ p)
    {md : UserMetadata} (hmd : t.md = some md) : ∃ md₀, s.md = some md₀ ∧ q.get md₀ = q.get md := by
  have hget : t.md.map q.get = s.md.map q.get := congrFun h ⟨q, hq⟩
  rw [hmd] at hget
  exact Option.map_eq_some_iff.1 hget.symm

end ArionDp
