import ArionDp.Dmn.Frames

/-!
# Descriptors while an object is loaded

`trn_xdp_bpfmaps` remembers the descriptors of the first object that has a map, and the others reuse them.

* `Orderly`: the table of descriptors, what `trn_xdp_bpfmaps` remembers, and what has been passed so far;
* `Loading`: what holds while an object is loaded, `Stage` and `Finishing`: how far the load has come;
* **`trnProgLoad_spec`**: a load from a state in which it is `Loadable`.
-/

namespace ArionDp

open Py Descriptors Wire

/-! ## What is remembered -/

/-- A remembered descriptor belongs to the object of the remembered map, while that is open. -/
def Registered (T : Table BpfFile) (maps : MapName → TrnXdpMap) : Prop :=
  ∀ m (i : ℕ), (maps m).fd = i → ∃ o, (maps m).map = some o ∧ o < T.next ∧
    ∀ l, T.objects o = some l → (BpfFile.map m, i) ∈ l

theorem Registered.later {T T' : Table BpfFile} {maps : MapName → TrnXdpMap} (h : Registered T maps)
    (hl : T.Later T') : Registered T' maps := by
  intro m i hi
  obtain ⟨o, ho, hlt, hmem⟩ := h m i hi
  refine ⟨o, ho, hlt.trans_le hl.next, fun l' hl' => ?_⟩
  obtain ⟨l, hlo, hsub⟩ := hl.subset o l' hlt hl'
  exact hsub (hmem l hlo)

/-- **The numbers of open objects are theirs, what is remembered is of such an object, and what has been
passed was right.** -/
structure Orderly (s : Daemon) : Prop where
  table : s.table.Sound
  registered : Registered s.table s.bpfmaps
  right : ∀ u ∈ s.uses, u.Right

/-- The objects of the remembered maps are open. -/
def Mapped (s : Daemon) : Prop := ∀ m o, (s.bpfmaps m).map = some o → s.table.Has o []

section Orderly

variable {s : Daemon} {T' : Table BpfFile}

theorem Orderly.later (h : Orderly s) (hT : T'.Sound) (hl : s.table.Later T') :
    Orderly { s with table := T' } := ⟨hT, h.registered.later hl, h.right⟩

theorem Orderly.use (h : Orderly s) {u : Use BpfFile} (hu : u.Right) :
    Orderly { s with uses := s.uses ++ [u] } where
  table := h.table
  registered := h.registered
  right u' hu' := by
    rcases List.mem_append.1 hu' with hu' | hu'
    · exact h.right u' hu'
    · exact List.mem_singleton.1 hu' ▸ hu

/-- **A remembered descriptor of an open object is right.** -/
theorem Orderly.right_map (h : Orderly s) {m : MapName} (hfd : 0 ≤ (s.bpfmaps m).fd)
    (ho : ∀ o, (s.bpfmaps m).map = some o → s.table.Has o []) :
    (s.table.pass (s.bpfmaps m).fd (.map m)).Right := by
  obtain ⟨i, hi⟩ := Int.eq_ofNat_of_zero_le hfd
  obtain ⟨o, hmap, -, hmem⟩ := h.registered m i hi
  obtain ⟨l, hl, -⟩ := ho o hmap
  have hhas : s.table.Has o [(.map m, i)] :=
    ⟨l, hl, fun q hq => List.mem_singleton.1 hq ▸ hmem l hl⟩
  rw [hi]
  exact h.table.right hhas

/-- What a right descriptor stands for. -/
theorem right_pass_iff {T : Table BpfFile} {fd : ℤ} {q : BpfFile} :
    (T.pass fd q).Right ↔ ∃ e, T.entry fd = some e ∧ e.refers = q := Option.map_eq_some_iff

end Orderly

/-! ## While an object is loaded -/

/-- Descriptors of objects that have to stay. -/
abbrev Keep := ℕ → List (BpfFile × ℕ) → Prop

/-- The maps have objects. -/
def Pointed (ms : List MapName) (s : Daemon) : Prop := ∀ m ∈ ms, (s.bpfmaps m).map ≠ none

/-- The parts of the object have descriptors. -/
def Stocked (n : ℕ) (qs : List BpfFile) (s : Daemon) : Prop :=
  ∀ q ∈ qs, ∃ i : ℕ, s.table.Has n [(q, i)]

/-- The shared maps have remembered descriptors. -/
def Shared (ms : List MapName) (s : Daemon) : Prop :=
  ∀ m ∈ ms, m.shared = true → 0 ≤ (s.bpfmaps m).fd

/-- The descriptor of a program is that of its object. -/
def ProgRight (p : ProgRef) (n : ℕ) (s : Daemon) : Prop :=
  ∃ i : ℕ, s.table.Has n [(.prog p.idx, i)] ∧ ∀ md, s.md = some md → (p.get md).progFd = i

/-- The object of a program. -/
def ObjIs (p : ProgRef) (obj : Option ℕ) (s : Daemon) : Prop :=
  ∀ md, s.md = some md → (p.get md).obj = obj

/-- A part with a descriptor has it by its name. -/
theorem Stocked.partFd {n : ℕ} {qs : List BpfFile} {s : Daemon} (h : Stocked n qs s) {q : BpfFile}
    (hq : q ∈ qs) : ∃ i : ℕ, s.table.partFd n q = i := by
  obtain ⟨i, hi⟩ := h q hq
  exact hi.partFd ⟨i, List.mem_singleton_self _⟩

/-- **While the object `n` of a program is loaded**: it is the program's, it is open like those of the
remembered maps and those that have to stay, and it is the object of every map of the program that has no
remembered descriptor yet. -/
structure Loading (p : ProgRef) (n : ℕ) (K : Keep) (s : Daemon) : Prop extends Orderly s where
  mapped : Mapped s
  opened : s.table.Has n []
  kept : ∀ o ps, K o ps → s.table.Has o ps ∧ o ≠ n
  own : ∀ m ∈ p.maps, m.shared → (s.bpfmaps m).fd < 0 →
    (s.bpfmaps m).map = none ∨ (s.bpfmaps m).map = some n
  apart : p.maps = [] → ∀ m, (s.bpfmaps m).map ≠ some n
  obj : ObjIs p (some n) s

section Loading

variable {p : ProgRef} {n : ℕ} {K : Keep} {s : Daemon} {k : Libbpf} {m : MapName}

/-- A part of the object gets a descriptor. -/
theorem Loading.give (h : Loading p n K s) {q : BpfFile} {i : ℕ} {T' : Table BpfFile}
    (hg : s.table.give n q q i = some T') : Loading p n K { s with table := T' } where
  toOrderly := h.toOrderly.later (h.table.give hg) (Table.later_give hg)
  mapped m o ho := (h.mapped m o ho).give hg
  opened := h.opened.give hg
  kept o ps hK := ⟨(h.kept o ps hK).1.give hg, (h.kept o ps hK).2⟩
  own := h.own
  apart := h.apart
  obj := h.obj

theorem Loading.use (h : Loading p n K s) {u : Use BpfFile} (hu : u.Right) :
    Loading p n K { s with uses := s.uses ++ [u] } :=
  ⟨h.toOrderly.use hu, h.mapped, h.opened, h.kept, h.own, h.apart, h.obj⟩

theorem Loading.pin (h : Loading p n K s) (pins : PinFile → Bool) :
    Loading p n K { s with pins := pins } :=
  ⟨⟨h.table, h.registered, h.right⟩, h.mapped, h.opened, h.kept, h.own, h.apart, h.obj⟩

theorem Loading.setFd (h : Loading p n K s) (fd : ℤ) :
    Loading p n K { s with md := s.md.map (p.update fun prog => { prog with progFd := fd }) } := by
  refine ⟨⟨h.table, h.registered, h.right⟩, h.mapped, h.opened, h.kept, h.own, h.apart, fun md hmd => ?_⟩
  obtain ⟨md', hmd', rfl⟩ := Option.map_eq_some_iff.1 hmd
  rw [ProgRef.get_update]
  exact h.obj md' hmd'

/-- What holds of all entries after one of them has changed. -/
theorem forall_setMap {P : MapName → TrnXdpMap → Prop} {maps : MapName → TrnXdpMap}
    {f : TrnXdpMap → TrnXdpMap} (h : ∀ m', m' ≠ m → P m' (maps m')) (hm : P m (f (maps m))) (m' : MapName) :
    P m' (if m' = m then f (maps m') else maps m') := by
  by_cases hmm : m' = m
  · subst hmm
    rwa [if_pos rfl]
  · rw [if_neg hmm]
    exact h m' hmm

/-- A map without an object gets the one that is loaded. -/
theorem Loading.point (h : Loading p n K s) (hm : m ∈ p.maps) :
    Loading p n K { s with bpfmaps := fun m' =>
      if m' = m then ⟨(s.bpfmaps m').fd, (s.bpfmaps m').map.or (some n)⟩ else s.bpfmaps m' } where
  table := h.table
  registered := by
    refine forall_setMap (f := fun x => ⟨x.fd, x.map.or (some n)⟩) (P := fun m' x => ∀ i : ℕ, x.fd = i →
      ∃ o, x.map = some o ∧ o < s.table.next ∧ ∀ l, s.table.objects o = some l → (.map m', i) ∈ l)
      (fun m' _ => h.registered m') fun i hi => ?_
    obtain ⟨o, ho, hrest⟩ := h.registered m i hi
    exact ⟨o, by rw [ho]; rfl, hrest⟩
  right := h.right
  mapped := by
    refine forall_setMap (f := fun x => ⟨x.fd, x.map.or (some n)⟩) (P := fun _ x => ∀ o, x.map = some o →
      s.table.Has o []) (fun m' _ => h.mapped m') fun o ho => ?_
    cases hmap : (s.bpfmaps m).map with
    | none =>
      rw [hmap] at ho
      exact Option.some.inj ho ▸ h.opened
    | some o' =>
      rw [hmap] at ho
      exact h.mapped m o (hmap.trans ho)
  opened := h.opened
  kept := h.kept
  own := by
    refine forall_setMap (f := fun x => ⟨x.fd, x.map.or (some n)⟩) (P := fun m' x => m' ∈ p.maps →
      m'.shared → x.fd < 0 → x.map = none ∨ x.map = some n) (fun m' _ => h.own m') fun hm hs hfd => ?_
    rcases h.own m hm hs hfd with hmap | hmap <;> exact .inr (by rw [hmap]; rfl)
  apart hp := absurd hp (List.ne_nil_of_mem hm)
  obj := h.obj

/-- A map of the object gets its descriptor remembered. -/
theorem Loading.register (h : Loading p n K s) (hm : m ∈ p.maps) (hs : m.shared = true)
    (hfd : (s.bpfmaps m).fd < 0) (hmap : (s.bpfmaps m).map ≠ none) :
    Loading p n K { s with bpfmaps := fun m' =>
      if m' = m then ⟨s.table.partFd n (.map m), (s.bpfmaps m').map⟩ else s.bpfmaps m' } where
  table := h.table
  registered := by
    refine forall_setMap (f := fun x => ⟨s.table.partFd n (.map m), x.map⟩) (P := fun m' x => ∀ i : ℕ,
      x.fd = i → ∃ o, x.map = some o ∧ o < s.table.next ∧
        ∀ l, s.table.objects o = some l → (.map m', i) ∈ l) (fun m' _ => h.registered m') fun i hi => ?_
    obtain ⟨l, hl, hsub⟩ := Table.partFd_eq hi
    refine ⟨n, (h.own m hm hs hfd).resolve_left hmap, h.opened.lt h.table, fun l' hl' => ?_⟩
    obtain rfl := Option.some.inj (hl.symm.trans hl')
    exact hsub (List.mem_singleton_self _)
  right := h.right
  mapped := forall_setMap (f := fun x => ⟨s.table.partFd n (.map m), x.map⟩)
    (P := fun _ x => ∀ o, x.map = some o → s.table.Has o []) (fun m' _ => h.mapped m') (h.mapped m)
  opened := h.opened
  kept := h.kept
  own := forall_setMap (f := fun x => ⟨s.table.partFd n (.map m), x.map⟩) (P := fun m' x => m' ∈ p.maps →
    m'.shared → x.fd < 0 → x.map = none ∨ x.map = some n) (fun m' _ => h.own m')
    fun hm hs _ => h.own m hm hs hfd
  apart hp := absurd hp (List.ne_nil_of_mem hm)
  obj := h.obj

/-! ## The calls of a load -/

/-- A number is handed out, or the call fails and nothing changes. -/
theorem giveFd_spec {P Q : Daemon → Prop} {o : ℕ} {part refers : BpfFile} {c : Call}
    (h : ∀ s T', P s → s.table.give o part refers (k.number c) = some T' → Q { s with table := T' }) :
    Triple P (giveFd k o part refers c) (fun _ => Q) fun _ => P := by
  refine Triple.bind Triple.getState fun s => ?_
  cases hg : s.table.give o part refers (k.number c) with
  | none => exact Triple.raise fun t ht => ht.2
  | some T' =>
    refine Triple.modifyState fun t ht => ?_
    obtain ⟨rfl, hP⟩ := ht
    exact h s T' hP hg

/-- A stage of a load: the maps that have objects, and the parts that have descriptors. -/
structure Stage (p : ProgRef) (n : ℕ) (K : Keep) (ms : List MapName) (qs : List BpfFile) (s : Daemon) :
    Prop extends Loading p n K s where
  pointed : Pointed ms s
  stocked : Stocked n qs s

variable {ms : List MapName} {qs : List BpfFile}

theorem Stage.give (h : Stage p n K ms qs s) {q : BpfFile} {i : ℕ} {T' : Table BpfFile}
    (hg : s.table.give n q q i = some T') : Stage p n K ms (qs ++ [q]) { s with table := T' } where
  toLoading := h.toLoading.give hg
  pointed := h.pointed
  stocked q' hq' := by
    rcases List.mem_append.1 hq' with hq' | hq'
    · obtain ⟨j, hj⟩ := h.stocked q' hq'
      exact ⟨j, hj.give hg⟩
    · exact List.mem_singleton.1 hq' ▸ ⟨i, Table.has_give hg⟩

theorem giveFd_stage {q : BpfFile} {c : Call} : Triple (Stage p n K ms qs) (giveFd k n q q c)
    (fun _ => Stage p n K ms (qs ++ [q])) fun _ => Loading p n K :=
  (giveFd_spec fun _ _ h hg => h.give hg).exc fun _ _ h => h.toLoading

/-- A map that is reused is the one that is remembered. -/
theorem bpfMapReuseFd_stage {fd : ℤ} : Triple (fun s => Stage p n K ms qs s ∧ (s.bpfmaps m).fd = fd ∧ 0 ≤ fd)
    (bpfMapReuseFd k p n m fd) (fun _ => Stage p n K ms (qs ++ [.map m])) fun _ => Loading p n K := by
  refine Triple.bind (Q := fun _ s => Stage p n K ms qs s ∧ (s.bpfmaps m).fd = fd ∧ 0 ≤ fd)
    ((keeps_callLibbpf _).exc fun _ _ h => h.1.toLoading) fun _ =>
    Triple.bind Triple.getState fun s => ?_
  cases he : s.table.entry fd with
  | none => exact Triple.raise fun t ht => ht.2.1.toLoading
  | some e =>
    refine Triple.assume (p := e.refers = .map m) (fun t ht => ?_) fun hrefers => ?_
    · obtain ⟨rfl, hst, rfl, hfd⟩ := ht
      obtain ⟨e', he', hm⟩ := right_pass_iff.1 (hst.right_map hfd (hst.mapped m))
      rw [Option.some.inj (he.symm.trans he'), hm]
    · dsimp only
      rw [hrefers]
      exact giveFd_stage.pre fun t ht => ht.2.1

/-- One round of the loop before the load. -/
theorem preLoadMap_stage (hm : m ∈ p.maps) : Triple (Stage p n K ms []) (preLoadMap k p n m)
    (fun _ => Stage p n K (ms ++ [m]) []) fun _ => Loading p n K := by
  refine Triple.bind (Q := fun _ => Stage p n K (ms ++ [m]) []) (Triple.modifyState fun s h => ?_)
    fun _ => Triple.bind (Q := fun fd s => Stage p n K (ms ++ [m]) [] s ∧ (s.bpfmaps m).fd = fd)
    (Triple.bind Triple.getState fun s => Triple.pure fun t ht => ⟨ht.2, ht.1 ▸ rfl⟩) fun fd =>
    Triple.ite (fun hfd => ?_) fun _ => Triple.pure fun s h => h.1
  · refine ⟨h.toLoading.point hm, fun m' hm' => ?_, fun _ hq => absurd hq List.not_mem_nil⟩
    dsimp only
    rcases List.mem_append.1 hm' with hm' | hm'
    · have hold := h.pointed m' hm'
      split_ifs
      · cases hmap : (s.bpfmaps m').map with
        | none => exact absurd hmap hold
        | some o => exact Option.some_ne_none o
      · exact hold
    · rw [if_pos (List.mem_singleton.1 hm')]
      cases (s.bpfmaps m').map with
      | none => exact Option.some_ne_none n
      | some o => exact Option.some_ne_none o
  · refine bpfMapReuseFd_stage.conseq (fun s h => ⟨h.1, h.2, hfd.2⟩) (fun _ s h => ?_)
      fun _ _ h => h
    exact ⟨h.toLoading, h.pointed, fun _ hq => absurd hq List.not_mem_nil⟩

theorem trnTransitXdpPreLoad_stage : Triple (Loading p n K) (trnTransitXdpPreLoad k p n)
    (fun _ => Stage p n K p.maps []) fun _ => Loading p n K :=
  Triple.bind (keeps_callLibbpf _) fun _ =>
    (Triple.forEach_done (fun done => Stage p n K done []) fun _ _ hm => preLoadMap_stage hm).pre
    fun _ h => ⟨h, fun _ hm => absurd hm List.not_mem_nil, fun _ hq => absurd hq List.not_mem_nil⟩

/-- A map of the object has a descriptor after it is created. -/
theorem createMap_stage : Triple (Stage p n K ms qs) (createMap k p n m)
    (fun _ => Stage p n K ms (qs ++ [.map m])) fun _ => Loading p n K := by
  refine Triple.bind Triple.getState fun s => Triple.ite (fun _ => ?_) fun hpart => Triple.pure fun t ht => ?_
  · exact giveFd_stage.pre fun t ht => ht.2
  · obtain ⟨rfl, h⟩ := ht
    refine ⟨h.toLoading, h.pointed, fun q hq => ?_⟩
    rcases List.mem_append.1 hq with hq | hq
    · exact h.stocked q hq
    · obtain ⟨i, hi⟩ := Int.eq_ofNat_of_zero_le (Int.not_lt.1 hpart)
      exact List.mem_singleton.1 hq ▸ ⟨i, Table.partFd_eq hi⟩

/-- **After the load all parts have descriptors.** -/
theorem bpfObjectLoad_stage : Triple (Stage p n K p.maps []) (bpfObjectLoad k p n)
    (fun _ => Stage p n K p.maps (p.maps.map .map ++ [.prog p.idx])) fun _ => Loading p n K := by
  refine Triple.bind ((keeps_callLibbpf _).exc fun _ _ h => h.toLoading) fun _ =>
    Triple.bind ?_ fun _ => giveFd_stage
  refine Triple.forEach_done (fun done => Stage p n K p.maps (done.map .map)) fun done m hm => ?_
  rw [List.map_append]
  exact createMap_stage

/-! ## After the load -/

/-- The file of a pinned map is opened, or nothing changes. -/
theorem bpfObjGet_spec {P : Daemon → Prop} {file : PinFile} : Triple P (bpfObjGet k p m file)
    (fun fd s => ∃ s₀ T', P s₀ ∧ s₀.table.openNumber (.map m) (k.number (.objGet p m)) = some T' ∧
      s = { s₀ with table := T' } ∧ fd = k.number (.objGet p m)) fun _ => P := by
  refine Triple.bind (keeps_callLibbpf _) fun _ => Triple.bind Triple.getState fun s =>
    Triple.ite (fun _ => ?_) fun _ => Triple.raise fun _ h => h.2
  cases hT : s.table.openNumber (.map m) (k.number (.objGet p m)) with
  | none => exact Triple.raise fun _ h => h.2
  | some T' =>
    refine Triple.bind (Q := fun _ t => P s ∧ t = { s with table := T' })
      (Triple.modifyState fun t ht => ?_) fun _ => Triple.pure fun t ht => ⟨s, T', ht.1, hT, ht.2, rfl⟩
    obtain ⟨rfl, hP⟩ := ht
    exact ⟨hP, rfl⟩

theorem closeFd_spec {P Q : Daemon → Prop} {E : Unit → Daemon → Prop} {fd : ℤ} {q : BpfFile}
    (h : ∀ s, P s → Q { s with uses := s.uses ++ [s.table.pass fd q], table := s.table.close fd }) :
    Triple P (closeFd fd q) (fun _ => Q) E := fun s hs => h s hs

/-- Pinning a map passes no descriptor but that of the file it may be pinned to already. -/
theorem pinMap_spec {P : Daemon → Prop} {file : PinFile}
    (huse : ∀ s u, P s → u.Right → P { s with uses := s.uses ++ [u] })
    (hpin : ∀ s b, P s → P { s with pins := b }) : Keeps P (pinMap k p m file) := by
  refine Triple.tryExcept (Triple.bind bpfObjGet_spec fun fd => closeFd_spec fun s h => ?_) fun _ =>
    Keeps.bind (keeps_callLibbpf _) fun _ => Triple.bind Triple.getState fun s =>
      Triple.ite (fun _ => Triple.raise fun _ h => h.2) fun _ => Triple.modifyState fun s h => hpin s _ h.2
  obtain ⟨s₀, T', hP, hT, rfl, rfl⟩ := h
  have hclose := Table.close_openNumber hT
  dsimp only
  rw [hclose]
  exact huse s₀ _ hP (Table.right_openNumber hT)

/-- What is known once the program has its descriptor. -/
structure Finishing (p : ProgRef) (n : ℕ) (K : Keep) (done : List MapName) (s : Daemon) : Prop extends
    Stage p n K p.maps (p.maps.map .map ++ [.prog p.idx]) s where
  prog : ProgRight p n s
  shared : Shared done s

/-- One round of the loop after the load. -/
theorem postLoadMap_finishing {done : List MapName} (hm : m ∈ p.maps) : Triple (Finishing p n K done)
    (postLoadMap k p n m) (fun _ => Finishing p n K (done ++ [m])) fun _ => Loading p n K := by
  refine Triple.bind (Q := fun _ => Finishing p n K done) (keeps_getMd.exc fun _ _ h => h.toLoading)
    fun md => Triple.bind (Q := fun _ => Finishing p n K done)
    ((pinMap_spec (fun s u h hu => ?_) fun s b h => ?_).exc fun _ _ h => h.toLoading) fun _ =>
    Triple.bind Triple.getState fun s => Triple.ite (fun hfd => ?_) fun hfd => Triple.pure fun t ht => ?_
  · exact ⟨⟨h.toLoading.use hu, h.pointed, h.stocked⟩, h.prog, h.shared⟩
  · exact ⟨⟨h.toLoading.pin b, h.pointed, h.stocked⟩, h.prog, h.shared⟩
  · refine Triple.modifyState fun t ht => ?_
    obtain ⟨rfl, h⟩ := ht
    have hpart := h.stocked.partFd (List.mem_append_left _ (List.mem_map_of_mem hm))
    refine ⟨⟨h.toLoading.register hm hfd.1 hfd.2 (h.pointed m hm), ?_, h.stocked⟩, h.prog, ?_⟩
    · intro m' hm'
      dsimp only
      split_ifs <;> exact h.pointed m' hm'
    · intro m' hm' hs
      dsimp only
      split_ifs with hmm
      · obtain ⟨i, hi⟩ := hpart
        exact hi ▸ Int.natCast_nonneg i
      · exact h.shared m' ((List.mem_append.1 hm').resolve_right fun hc => hmm (List.mem_singleton.1 hc)) hs
  · obtain ⟨rfl, h⟩ := ht
    refine ⟨h.toStage, h.prog, fun m' hm' hs => ?_⟩
    rcases List.mem_append.1 hm' with hm' | hm'
    · exact h.shared m' hm' hs
    · obtain rfl := List.mem_singleton.1 hm'
      exact Int.not_lt.1 fun hc => hfd ⟨hs, hc⟩

theorem trnTransitXdpPostLoad_finishing :
    Triple (Stage p n K p.maps (p.maps.map .map ++ [.prog p.idx]))
      (trnTransitXdpPostLoad k p n) (fun _ => Finishing p n K p.maps) fun _ => Loading p n K := by
  refine Triple.bind ((keeps_callLibbpf _).exc fun _ _ h => h.toLoading) fun _ =>
    Triple.bind Triple.getState fun s => Triple.bind (Q := fun _ => Finishing p n K [])
    (Triple.modifyState fun t ht => ?_) fun _ =>
    Triple.forEach_done (Finishing p n K) fun _ _ hm => postLoadMap_finishing hm
  obtain ⟨rfl, h⟩ := ht
  obtain ⟨i, hi⟩ := h.stocked.partFd (List.mem_append_right _ (List.mem_singleton_self _))
  refine ⟨⟨h.toLoading.setFd _, h.pointed, h.stocked⟩, ⟨i, Table.partFd_eq hi, fun md hmd => ?_⟩,
    fun _ hm => absurd hm List.not_mem_nil⟩
  obtain ⟨md', -, rfl⟩ := Option.map_eq_some_iff.1 hmd
  rw [ProgRef.get_update]
  exact hi

/-! ## Loading an object -/

/-- What is left after a load that has failed. -/
structure Failed (p : ProgRef) (K : Keep) (s : Daemon) : Prop extends Orderly s where
  kept : ∀ o ps, K o ps → s.table.Has o ps
  mapped : p.maps = [] → Mapped s
  obj : ObjIs p none s

/-- An object can be opened: the objects of remembered maps are open, and a shared map of the program that
has an object has a remembered descriptor too. -/
structure Openable (p : ProgRef) (K : Keep) (s : Daemon) : Prop extends Orderly s where
  mapped : Mapped s
  kept : ∀ o ps, K o ps → s.table.Has o ps
  own : ∀ m ∈ p.maps, m.shared → (s.bpfmaps m).fd < 0 → (s.bpfmaps m).map = none

/-- An object can be loaded: moreover the object that the program has so far is not one that stays. -/
structure Loadable (p : ProgRef) (K : Keep) (s : Daemon) : Prop extends Openable p K s where
  old : ∀ md, s.md = some md → ∀ o, (p.get md).obj = some o →
    (∀ m, (s.bpfmaps m).map ≠ some o) ∧ ∀ ps, ¬ K o ps

theorem objIs_setObj (s : Daemon) (obj : Option ℕ) :
    ObjIs p obj { s with md := s.md.map (p.update fun prog => { prog with obj := obj }) } := by
  intro md hmd
  obtain ⟨md', -, rfl⟩ := Option.map_eq_some_iff.1 hmd
  rw [ProgRef.get_update]

theorem loadObject_spec : Triple (Loading p n K) (loadObject k p n)
    (fun _ => Finishing p n K p.maps) fun _ => Failed p K := by
  refine Triple.tryExcept (Triple.bind trnTransitXdpPreLoad_stage fun _ =>
    Triple.bind bpfObjectLoad_stage fun _ => trnTransitXdpPostLoad_finishing) fun _ => ?_
  refine Triple.bind (Q := fun _ s => Orderly s ∧ (∀ o ps, K o ps → s.table.Has o ps) ∧
    (p.maps = [] → Mapped s)) (Triple.modifyState fun s h => ?_) fun _ =>
    Triple.bind (Q := fun _ => Failed p K) (Triple.modifyState fun s h => ?_) fun _ =>
    Triple.raise fun _ h => h
  · refine ⟨h.toOrderly.later (h.table.closeObject n) (Table.later_closeObject ..), fun o ps hK => ?_,
      fun hp m o ho => ?_⟩
    · exact (h.kept o ps hK).1.closeObject (h.kept o ps hK).2
    · exact (h.mapped m o ho).closeObject fun hon => h.apart hp m (hon ▸ ho)
  · exact ⟨⟨h.1.table, h.1.registered, h.1.right⟩, h.2.1, h.2.2, objIs_setObj s none⟩

/-- Where there is metadata it is found, and nothing changes. -/
theorem getMd_spec {P : Daemon → Prop} : Triple P getMd (fun md s => s.md = some md ∧ P s)
    fun _ s => s.md = none ∧ P s := by
  refine Triple.bind Triple.getState fun s => ?_
  cases hmd : s.md with
  | none => exact Triple.raise fun t ht => ⟨ht.1 ▸ hmd, ht.2⟩
  | some md => exact Triple.pure fun t ht => ⟨ht.1 ▸ hmd, ht.2⟩

theorem Openable.failed (h : Openable p K s) (hobj : ObjIs p none s) : Failed p K s :=
  ⟨h.toOrderly, h.kept, fun _ => h.mapped, hobj⟩

/-- A new object is open, and no other one is it. -/
theorem bpfObjectOpenFile_spec : Triple (Openable p K) (bpfObjectOpenFile k p)
    (fun o s => Loading p o K
      { s with md := s.md.map (p.update fun prog => { prog with obj := some o }) })
    fun _ => Openable p K := by
  refine Triple.bind (keeps_callLibbpf _) fun _ => Triple.bind Triple.getState fun s =>
    Triple.bind (Q := fun _ t => Openable p K s ∧ t = { s with table := s.table.openObject })
    (Triple.modifyState fun t ht => ?_) fun _ => Triple.pure fun t ht => ?_
  · obtain ⟨rfl, h⟩ := ht
    exact ⟨h, rfl⟩
  · obtain ⟨h, rfl⟩ := ht
    refine ⟨⟨h.table.openObject, h.registered.later (Table.later_openObject _), h.right⟩,
      fun m o ho => ?_, Table.has_openObject _, fun o ps hK => ?_, fun m hm hs hfd => .inl (h.own m hm hs hfd),
      fun _ m hm => ?_, objIs_setObj { s with table := s.table.openObject } (some s.table.next)⟩
    · have hopen := h.mapped m o ho
      exact hopen.openObject (hopen.lt h.table)
    · have hopen := h.kept o ps hK
      exact ⟨hopen.openObject (hopen.lt h.table), (hopen.lt h.table).ne⟩
    · exact ((h.mapped m _ hm).lt h.table).ne rfl

/-- The object that the program has so far is closed. -/
theorem bpfObjectClose_openable {E : Unit → Daemon → Prop} (md : UserMetadata) :
    Triple (fun s => s.md = some md ∧ Loadable p K s) (bpfObjectClose (p.get md).obj)
      (fun _ => Openable p K) E := by
  cases hobj : (p.get md).obj with
  | none => exact Triple.pure fun s h => h.2.toOpenable
  | some o =>
    refine Triple.modifyState fun s h => ?_
    obtain ⟨hmd, h⟩ := h
    obtain ⟨hmaps, hK⟩ := h.old md hmd o hobj
    refine ⟨h.toOrderly.later (h.table.closeObject o) (Table.later_closeObject ..), fun m o' ho' => ?_,
      fun o' ps hK' => ?_, h.own⟩
    · exact (h.mapped m o' ho').closeObject fun hoo => hmaps m (hoo ▸ ho')
    · exact (h.kept o' ps hK').closeObject fun hoo => hK ps (hoo ▸ hK')

/-- Without a file the program has no object. -/
theorem openFailed_spec {α : Type} {Q : α → Daemon → Prop} : Triple (Openable p K) (do
    setProg p fun prog => { prog with obj := none }
    raise () : Svc α) Q fun _ => Failed p K := by
  refine Triple.bind (Q := fun _ => Failed p K) (Triple.modifyState fun s h => ?_) fun _ =>
    Triple.raise fun _ h => h
  exact Openable.failed ⟨⟨h.table, h.registered, h.right⟩, h.mapped, h.kept, h.own⟩ (objIs_setObj s none)

/-- **Loading an object** gives it a descriptor for each of its parts, or closes it again. -/
theorem trnProgLoad_spec : Triple (Loadable p K) (trnProgLoad k p)
    (fun _ s => ∃ n, Finishing p n K p.maps s) fun _ => Failed p K := by
  refine Triple.bind (getMd_spec.exc fun _ s h => ?_) fun md =>
    Triple.bind (bpfObjectClose_openable md) fun _ =>
    Triple.bind (Triple.tryExcept bpfObjectOpenFile_spec fun _ => openFailed_spec) fun o =>
    Triple.bind (Q := fun _ => Loading p o K) (Triple.modifyState fun s h => h) fun _ =>
    loadObject_spec.post fun _ s h => ⟨o, h⟩
  exact h.2.toOpenable.failed fun md hmd => nomatch h.1.symm.trans hmd

end Loading

end ArionDp
