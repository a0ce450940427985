import ArionDp.Lib.Bytes

/-!
# Options of a command line

`ketopt` as the subcommands call it: without long options, and without moving options ahead of other arguments.

* `ketopt`, `ketoptLoop`: a call, and a loop of calls;
* `shortOptions`: the options of a command line, argument by argument;
* **`ketoptLoop_eq`**: the loop takes these options in their order, and ends.
-/

namespace ArionDp

open Wire

/-- A C string: its bytes before the NUL. -/
structure CStr where
  bytes : Bytes
  noNul : 0 ∉ bytes
  deriving DecidableEq

/-- `s[k]`, where the NUL is read at the end. -/
def CStr.get (s : CStr) (k : ℕ) : U8 := rd s.bytes k

/-- `strlen` -/
def CStr.strlen (s : CStr) : ℕ := s.bytes.length

/-- The byte of a character. -/
def ch (c : Char) : U8 := BitVec.ofNat 8 c.toNat

/-- `ketopt_t`, without what is for long options (`longidx`) and for moved arguments (`n_args`) -/
structure Ketopt where
  ind : ℕ
  opt : U8
  arg : Option Bytes
  i : ℕ
  pos : ℕ
  deriving DecidableEq

/-- `KETOPT_INIT` -/
def ketoptInit : Ketopt := ⟨1, 0, none, 1, 0⟩

/-- What `strchr` finds of an option in the option string. -/
inductive OptKind
  | unknown
  | flag
  | argument
  deriving DecidableEq

/-- `strchr(ostr, opt)`, and whether a colon is behind it -/
def optKind (ostr : Bytes) (opt : U8) : OptKind :=
  match ostr.dropWhile (· ≠ opt) with
  | [] => .unknown
  | _ :: p => if rd p 0 = ch ':' then .argument else .flag

/-- The end of a call that has read the argument `a` up to `pos`; `none` is the `pos` of -1. -/
def Ketopt.finish (s : Ketopt) (a : CStr) (pos : Option ℕ) : Ketopt :=
  match pos with
  | none => { s with i := s.i + 1, pos := 0, ind := s.i + 1 }
  | some pos =>
    if a.get pos = 0 then { s with i := s.i + 1, pos := 0, ind := s.i + 1 }
    else { s with pos := pos, ind := s.i }

/-- The branch of `ketopt` for a short option, at `pos` in the argument `a` -/
def ketoptShort (s : Ketopt) (argv : List CStr) (ostr : Bytes) (a : CStr) (pos : ℕ) : Option U8 × Ketopt :=
  let opt := a.get pos
  let s := { s with opt := opt }
  match optKind ostr opt with
  | .unknown => (some (ch '?'), s.finish a (some (pos + 1)))
  | .flag => (some opt, s.finish a (some (pos + 1)))
  | .argument =>
    if a.get (pos + 1) = 0 then
      match argv[s.i + 1]? with
      | some b => (some opt, { s with i := s.i + 1, arg := some b.bytes }.finish b none)
      | none => (some (ch ':'), s.finish a none)
    else (some opt, { s with arg := some (a.bytes.drop (pos + 1)) }.finish a none)

/-- `ketopt(s, argc, argv, 0, ostr, 0)`, and the status behind it; `none` is the return of -1. -/
def ketopt (s : Ketopt) (argv : List CStr) (ostr : Bytes) : Option U8 × Ketopt :=
  let s := { s with arg := none }
  match argv[s.i]? with
  | none => (none, { s with ind := s.i })
  | some a =>
    if a.get 0 ≠ ch '-' ∨ a.get 1 = 0 then (none, { s with ind := s.i })
    else if a.get 1 = ch '-' then
      if a.get 2 = 0 then (none, { s with i := s.i + 1, ind := s.i + 1 })
      else (some (ch '?'), { s with opt := 0 }.finish a none)
    else ketoptShort s argv ostr a (if s.pos = 0 then 1 else s.pos)

/-- An option, as `ketopt` returns it, and its argument. -/
structure ShortOption where
  opt : U8
  arg : Option Bytes
  deriving DecidableEq

/-- `while ((c = ketopt(s, argc, argv, 0, ostr, 0)) >= 0)` around a body that may leave it; `none` without fuel. -/
def ketoptLoop {σ ε : Type} (body : σ → ShortOption → Except ε σ) (argv : List CStr) (ostr : Bytes) :
    ℕ → Ketopt → σ → Option (Except ε σ)
  | 0, _, _ => none
  | fuel + 1, s, x =>
    match ketopt s argv ostr with
    | (none, _) => some (.ok x)
    | (some c, s) => match body x ⟨c, s.arg⟩ with
      | .error e => some (.error e)
      | .ok x => ketoptLoop body argv ostr fuel s x

/-! ## The options -/

section Options

variable (ostr : Bytes)

/-- The options in an argument behind its dash, and the one at its end that still wants an argument. -/
def groupOptions : Bytes → List ShortOption × Option U8
  | [] => ([], none)
  | c :: cs => match optKind ostr c with
    | .unknown => (⟨ch '?', none⟩ :: (groupOptions cs).1, (groupOptions cs).2)
    | .flag => (⟨c, none⟩ :: (groupOptions cs).1, (groupOptions cs).2)
    | .argument => if cs = [] then ([], some c) else ([⟨c, some cs⟩], none)

/-- **The options of a command line**, from an argument on: up to one without a dash, a single dash or two. -/
def shortOptions : List CStr → List ShortOption
  | [] => []
  | a :: rest =>
    if a.get 0 ≠ ch '-' ∨ a.get 1 = 0 then []
    else if a.get 1 = ch '-' then
      if a.get 2 = 0 then [] else ⟨ch '?', none⟩ :: shortOptions rest
    else match groupOptions ostr (a.bytes.drop 1) with
      | (os, none) => os ++ shortOptions rest
      | (os, some c) => match rest with
        | [] => os ++ [⟨ch ':', none⟩]
        | b :: rest => os ++ ⟨c, some b.bytes⟩ :: shortOptions rest

/-- The options of an argument and of those behind it. -/
def afterGroup (group : List ShortOption × Option U8) (rest : List CStr) : List ShortOption :=
  match group.2 with
  | none => group.1 ++ shortOptions ostr rest
  | some c => match rest with
    | [] => group.1 ++ [⟨ch ':', none⟩]
    | b :: rest => group.1 ++ ⟨c, some b.bytes⟩ :: shortOptions ostr rest

end Options

theorem CStr.get_eq_zero_iff (s : CStr) (k : ℕ) : s.get k = 0 ↔ s.strlen ≤ k := by
  unfold CStr.get CStr.strlen rd
  constructor
  · intro h
    by_contra! hk
    rw [List.getD_eq_getElem _ _ hk] at h
    exact s.noNul (h ▸ List.getElem_mem hk)
  · exact List.getD_eq_default _ _

/-- The argument starts with a dash and a byte that is no dash. -/
def CStr.IsGroup (a : CStr) : Prop := a.get 0 = ch '-' ∧ a.get 1 ≠ 0 ∧ a.get 1 ≠ ch '-'

variable {ostr : Bytes} {argv : List CStr} {s : Ketopt}

theorem shortOptions_group {a : CStr} (ha : a.IsGroup) (rest : List CStr) :
    shortOptions ostr (a :: rest) = afterGroup ostr (groupOptions ostr (a.bytes.drop 1)) rest := by
  obtain ⟨hdash, hone, htwo⟩ := ha
  rw [shortOptions, if_neg (not_or.2 ⟨not_not.2 hdash, hone⟩), if_neg htwo, afterGroup]
  rcases groupOptions ostr (a.bytes.drop 1) with ⟨os, _ | c⟩
  · rfl
  · cases rest <;> rfl

/-- Inside of an argument the status is behind its first bytes. -/
def Ketopt.Inside (argv : List CStr) (s : Ketopt) : Prop :=
  s.pos ≠ 0 → ∃ a, argv[s.i]? = some a ∧ a.IsGroup ∧ s.pos < a.strlen

/-- The options that are still to come. -/
def Ketopt.toCome (ostr : Bytes) (argv : List CStr) (s : Ketopt) : List ShortOption :=
  if s.pos = 0 then shortOptions ostr (argv.drop s.i)
  else match argv[s.i]? with
    | none => []
    | some a => afterGroup ostr (groupOptions ostr (a.bytes.drop s.pos)) (argv.drop (s.i + 1))

theorem inside_of_pos_eq_zero (h : s.pos = 0) : s.Inside argv := fun hne => absurd h hne

/-- Behind an argument that is used up. -/
theorem toCome_finish_none (ostr : Bytes) (argv : List CStr) (s : Ketopt) (a : CStr) :
    (s.finish a none).Inside argv ∧ (s.finish a none).arg = s.arg ∧
      (s.finish a none).toCome ostr argv = shortOptions ostr (argv.drop (s.i + 1)) :=
  ⟨inside_of_pos_eq_zero rfl, rfl, if_pos rfl⟩

/-- Behind an option that is one byte. -/
theorem toCome_finish_some (ostr : Bytes) {a : CStr} (h : argv[s.i]? = some a) (ha : a.IsGroup) (pos : ℕ) :
    (s.finish a (some (pos + 1))).Inside argv ∧ (s.finish a (some (pos + 1))).arg = s.arg ∧
      (s.finish a (some (pos + 1))).toCome ostr argv =
        afterGroup ostr (groupOptions ostr (a.bytes.drop (pos + 1))) (argv.drop (s.i + 1)) := by
  by_cases hend : a.get (pos + 1) = 0
  · have hdrop : a.bytes.drop (pos + 1) = [] := List.drop_eq_nil_of_le ((a.get_eq_zero_iff _).1 hend)
    rw [Ketopt.finish, if_pos hend, hdrop]
    exact ⟨inside_of_pos_eq_zero rfl, rfl, if_pos rfl⟩
  · have hlt : pos + 1 < a.strlen := not_le.1 (mt (a.get_eq_zero_iff _).2 hend)
    rw [Ketopt.finish, if_neg hend]
    refine ⟨fun _ => ⟨a, h, ha, hlt⟩, rfl, ?_⟩
    rw [Ketopt.toCome, if_neg (Nat.succ_ne_zero pos), h]

/-- The bytes from a position on, which is not the end. -/
theorem CStr.drop_eq_cons (a : CStr) {pos : ℕ} (h : pos < a.strlen) :
    a.bytes.drop pos = a.get pos :: a.bytes.drop (pos + 1) := by
  rw [CStr.get, rd, List.getD_eq_getElem _ _ h]
  exact List.drop_eq_getElem_cons h

theorem afterGroup_cons (o : ShortOption) (group : List ShortOption × Option U8) (rest : List CStr) :
    afterGroup ostr (o :: group.1, group.2) rest = o :: afterGroup ostr group rest := by
  rcases group with ⟨os, _ | c⟩
  · rfl
  · cases rest <;> rfl

/-- An option that is to have an argument gets the rest of this one, or the next one. -/
theorem ketoptShort_argument {a : CStr} {pos : ℕ} (hkind : optKind ostr (a.get pos) = .argument)
    (hs : s.arg = none) :
    ∃ c t, ketoptShort s argv ostr a pos = (some c, t) ∧ t.Inside argv ∧
      afterGroup ostr (if a.bytes.drop (pos + 1) = [] then ([], some (a.get pos))
          else ([⟨a.get pos, some (a.bytes.drop (pos + 1))⟩], none)) (argv.drop (s.i + 1)) =
        ⟨c, t.arg⟩ :: t.toCome ostr argv := by
  have hend : a.get (pos + 1) = 0 ↔ a.bytes.drop (pos + 1) = [] :=
    (a.get_eq_zero_iff _).trans List.drop_eq_nil_iff.symm
  by_cases hdrop : a.bytes.drop (pos + 1) = []
  · rw [if_pos hdrop]
    cases hnext : argv[s.i + 1]? with
    | none =>
      obtain ⟨hin, harg, hcome⟩ := toCome_finish_none ostr argv { s with opt := a.get pos } a
      have hlast : argv.drop (s.i + 1) = [] := List.drop_eq_nil_of_le (List.getElem?_eq_none_iff.1 hnext)
      refine ⟨ch ':', _, by simp only [ketoptShort, hkind, if_pos (hend.2 hdrop), hnext], hin, ?_⟩
      rw [harg, hcome, hs, hlast]
      rfl
    | some b =>
      obtain ⟨hin, harg, hcome⟩ :=
        toCome_finish_none ostr argv { s with opt := a.get pos, i := s.i + 1, arg := some b.bytes } b
      refine ⟨a.get pos, _, by simp only [ketoptShort, hkind, if_pos (hend.2 hdrop), hnext], hin, ?_⟩
      rw [harg, hcome, List.drop_eq_getElem?_toList_append, hnext]
      rfl
  · obtain ⟨hin, harg, hcome⟩ :=
      toCome_finish_none ostr argv { s with opt := a.get pos, arg := some (a.bytes.drop (pos + 1)) } a
    refine ⟨a.get pos, _, by simp only [ketoptShort, hkind, if_neg (mt hend.1 hdrop)], hin, ?_⟩
    rw [harg, hcome, if_neg hdrop]
    rfl

/-- A call inside of an argument takes the first of the options to come. -/
theorem ketoptShort_spec {a : CStr} (h : argv[s.i]? = some a) (ha : a.IsGroup) (hs : s.arg = none) {pos : ℕ}
    (hpos : pos < a.strlen) :
    ∃ c t, ketoptShort s argv ostr a pos = (some c, t) ∧ t.Inside argv ∧
      afterGroup ostr (groupOptions ostr (a.bytes.drop pos)) (argv.drop (s.i + 1)) =
        ⟨c, t.arg⟩ :: t.toCome ostr argv := by
  obtain ⟨hin, harg, hcome⟩ := toCome_finish_some ostr (s := { s with opt := a.get pos }) h ha pos
  rw [a.drop_eq_cons hpos, groupOptions]
  cases hkind : optKind ostr (a.get pos) with
  | unknown =>
    refine ⟨ch '?', _, by simp only [ketoptShort, hkind], hin, ?_⟩
    rw [harg, hcome, hs]
    exact afterGroup_cons _ _ _
  | flag =>
    refine ⟨a.get pos, _, by simp only [ketoptShort, hkind], hin, ?_⟩
    rw [harg, hcome, hs]
    exact afterGroup_cons _ _ _
  | argument => exact ketoptShort_argument hkind hs

/-- An argument that is no group of short options: it ends the options, or is a long one, of which there are none. -/
theorem ketopt_of_not_isGroup {a : CStr} (h : argv[s.i]? = some a) (ha : ¬ a.IsGroup) (rest : List CStr) :
    ((ketopt s argv ostr).1 = none ∧ shortOptions ostr (a :: rest) = []) ∨
      (ketopt s argv ostr = (some (ch '?'), { s with arg := none, opt := 0 }.finish a none) ∧
        shortOptions ostr (a :: rest) = ⟨ch '?', none⟩ :: shortOptions ostr rest) := by
  rw [shortOptions]
  simp only [ketopt, h]
  by_cases hstop : a.get 0 ≠ ch '-' ∨ a.get 1 = 0
  · simp only [if_pos hstop, and_self, true_or]
  · have hdash : a.get 1 = ch '-' := by
      by_contra hne
      exact ha ⟨not_not.1 (not_or.1 hstop).1, (not_or.1 hstop).2, hne⟩
    simp only [if_neg hstop, if_pos hdash]
    by_cases htwo : a.get 2 = 0
    · simp only [if_pos htwo, and_self, true_or]
    · simp only [if_neg htwo, and_self, or_true]

theorem toCome_zero (h : s.pos = 0) : s.toCome ostr argv = shortOptions ostr (argv.drop s.i) := if_pos h

/-- At the start of an argument the status is before its first option, if it has options. -/
theorem toCome_group {a : CStr} (h : argv[s.i]? = some a) (ha : a.IsGroup) :
    s.toCome ostr argv = afterGroup ostr (groupOptions ostr (a.bytes.drop (if s.pos = 0 then 1 else s.pos)))
      (argv.drop (s.i + 1)) := by
  by_cases hpos : s.pos = 0
  · rw [if_pos hpos, toCome_zero hpos, List.drop_eq_getElem?_toList_append, h]
    exact shortOptions_group ha _
  · rw [if_neg hpos, Ketopt.toCome, if_neg hpos, h]

/-- **A call** takes the first of the options to come. -/
theorem ketopt_spec (ostr : Bytes) (hin : s.Inside argv) :
    ((ketopt s argv ostr).1 = none ∧ s.toCome ostr argv = []) ∨
      ∃ c t, ketopt s argv ostr = (some c, t) ∧ t.Inside argv ∧
        s.toCome ostr argv = ⟨c, t.arg⟩ :: t.toCome ostr argv := by
  have hstart (hno : ∀ a, argv[s.i]? = some a → ¬ a.IsGroup) : s.pos = 0 := by
    by_contra hne
    obtain ⟨a, ha, hgroup, -⟩ := hin hne
    exact hno a ha hgroup
  cases h : argv[s.i]? with
  | none =>
    refine .inl ⟨by simp only [ketopt, h], ?_⟩
    rw [toCome_zero (hstart fun a ha => by simp [h] at ha), List.drop_eq_nil_of_le (List.getElem?_eq_none_iff.1 h)]
    rfl
  | some a =>
    by_cases ha : a.IsGroup
    · right
      have hcall : ketopt s argv ostr =
          ketoptShort { s with arg := none } argv ostr a (if s.pos = 0 then 1 else s.pos) := by
        simp only [ketopt, h, ha.1, ha.2.1, ha.2.2, ne_eq, not_true_eq_false, or_self, if_false]
      have hlen : (if s.pos = 0 then 1 else s.pos) < a.strlen := by
        split_ifs with hpos
        · exact not_le.1 (mt (a.get_eq_zero_iff 1).2 ha.2.1)
        · obtain ⟨b, hb, -, hlt⟩ := hin hpos
          exact Option.some.inj (h.symm.trans hb) ▸ hlt
      rw [hcall, toCome_group h ha]
      exact ketoptShort_spec (s := { s with arg := none }) h ha rfl hlen
    · have hdrop : argv.drop s.i = a :: argv.drop (s.i + 1) := by
        rw [List.drop_eq_getElem?_toList_append, h]
        rfl
      rw [toCome_zero (hstart fun b hb => Option.some.inj (h.symm.trans hb) ▸ ha), hdrop]
      refine (ketopt_of_not_isGroup h ha _).imp_right fun ⟨hcall, hoptions⟩ => ?_
      obtain ⟨hin', harg, hcome⟩ :=
        toCome_finish_none ostr argv { s with arg := none, opt := 0 } a
      exact ⟨_, _, hcall, hin', by rw [harg, hcome, hoptions]⟩

/-! ## The loop -/

/-- As many options as bytes, at most. -/
theorem groupOptions_length_le (ostr : Bytes) : ∀ cs : Bytes,
    (groupOptions ostr cs).1.length + (groupOptions ostr cs).2.toList.length ≤ cs.length
  | [] => le_refl 0
  | c :: cs => by
    have ih := groupOptions_length_le ostr cs
    rw [groupOptions, List.length_cons]
    cases optKind ostr c with
    | argument =>
      dsimp only
      split_ifs <;> simp
    | _ =>
      dsimp only
      rw [List.length_cons]
      omega

/-- The bytes of the arguments. -/
def argBytes (argv : List CStr) : ℕ := (argv.map CStr.strlen).sum

theorem shortOptions_length_le (ostr : Bytes) (argv : List CStr) :
    (shortOptions ostr argv).length ≤ argBytes argv := by
  fun_induction shortOptions ostr argv with
  | case1 | case2 | case3 => exact Nat.zero_le _
  | case4 a rest hstop hdash htwo ih =>
    have hlen : 2 < a.strlen := not_le.1 (mt (a.get_eq_zero_iff 2).2 htwo)
    rw [argBytes, List.map_cons, List.sum_cons, List.length_cons, ← argBytes]
    omega
  | case5 a rest hstop hdash os hgroup ih =>
    have hlen := groupOptions_length_le ostr (a.bytes.drop 1)
    rw [hgroup, List.length_drop] at hlen
    rw [argBytes, List.map_cons, List.sum_cons, List.length_append, ← argBytes, CStr.strlen]
    exact Nat.add_le_add (hlen.trans (Nat.sub_le ..)) ih
  | case6 a hstop hdash os c hgroup =>
    have hlen := groupOptions_length_le ostr (a.bytes.drop 1)
    rw [hgroup, List.length_drop] at hlen
    rw [argBytes, List.map_singleton, List.sum_singleton, List.length_append, CStr.strlen]
    exact hlen.trans (Nat.sub_le ..)
  | case7 a hstop hdash os c hgroup b rest ih =>
    have hlen := groupOptions_length_le ostr (a.bytes.drop 1)
    rw [hgroup, List.length_drop, Option.toList_some, List.length_singleton] at hlen
    dsimp only at hlen
    simp only [argBytes, List.map_cons, List.sum_cons, List.length_append, List.length_cons, CStr.strlen] at ih ⊢
    omega

/-- An option without an argument is unknown, has lost its argument, or is to have none. -/
def ShortOption.Alone (ostr : Bytes) (o : ShortOption) : Prop :=
  o.opt = ch '?' ∨ o.opt = ch ':' ∨ optKind ostr o.opt = .flag

theorem groupOptions_arg : ∀ cs : Bytes, ∀ o ∈ (groupOptions ostr cs).1, o.arg = none → o.Alone ostr
  | [], _, ho, _ => absurd ho List.not_mem_nil
  | c :: cs, o, ho, harg => by
    rw [groupOptions] at ho
    cases hkind : optKind ostr c with
    | unknown =>
      rw [hkind, List.mem_cons] at ho
      exact ho.elim (fun h => .inl (h ▸ rfl)) fun h => groupOptions_arg cs o h harg
    | flag =>
      rw [hkind, List.mem_cons] at ho
      exact ho.elim (fun h => .inr (.inr (h ▸ hkind))) fun h => groupOptions_arg cs o h harg
    | argument =>
      rw [hkind] at ho
      dsimp only at ho
      split_ifs at ho
      · exact absurd ho List.not_mem_nil
      · rw [List.mem_singleton.1 ho] at harg
        exact absurd harg (Option.some_ne_none cs)

/-- An option that is to have an argument has one. -/
theorem shortOptions_arg {o : ShortOption} (ho : o ∈ shortOptions ostr argv) (harg : o.arg = none) :
    o.Alone ostr := by
  have hgroup {a : CStr} {os : List ShortOption} {c : Option U8} (h : groupOptions ostr (a.bytes.drop 1) = (os, c))
      (hos : o ∈ os) : o.Alone ostr := groupOptions_arg _ o (by rwa [h]) harg
  fun_induction shortOptions ostr argv with
  | case1 | case2 | case3 => exact absurd ho List.not_mem_nil
  | case4 a rest hstop hdash htwo ih => exact (List.mem_cons.1 ho).elim (fun h => .inl (h ▸ rfl)) ih
  | case5 a rest hstop hdash os h ih => exact (List.mem_append.1 ho).elim (hgroup h) ih
  | case6 a hstop hdash os c h =>
    exact (List.mem_append.1 ho).elim (hgroup h) fun hlast => .inr (.inl (List.mem_singleton.1 hlast ▸ rfl))
  | case7 a hstop hdash os c h b rest ih =>
    obtain hos | hcons := List.mem_append.1 ho
    · exact hgroup h hos
    · obtain rfl | hrest := List.mem_cons.1 hcons
      · exact absurd harg (Option.some_ne_none _)
      · exact ih hrest

/-- **The loop** takes the options to come in their order, and ends. -/
theorem ketoptLoop_toCome {σ ε : Type} (body : σ → ShortOption → Except ε σ) {fuel : ℕ} (hin : s.Inside argv)
    (hfuel : (s.toCome ostr argv).length < fuel) (x : σ) :
    ketoptLoop body argv ostr fuel s x = some ((s.toCome ostr argv).foldlM body x) := by
  induction fuel generalizing s x with
  | zero => exact absurd hfuel (Nat.not_lt_zero _)
  | succ fuel ih =>
    rw [ketoptLoop]
    obtain ⟨hcall, hcome⟩ | ⟨c, t, hcall, hin', hcome⟩ := ketopt_spec ostr hin
    · rw [hcome, ← Prod.eta (ketopt s argv ostr), hcall]
      rfl
    · rw [hcome, List.length_cons, Nat.succ_lt_succ_iff] at hfuel
      rw [hcome, hcall, List.foldlM_cons]
      dsimp only
      cases body x ⟨c, t.arg⟩ with
      | error e => rfl
      | ok x => exact ih hin' hfuel x

/-- **The loop over a command line** takes its options in their order; the first argument is the name of the program. -/
theorem ketoptLoop_eq {σ ε : Type} (body : σ → ShortOption → Except ε σ) {fuel : ℕ}
    (hfuel : argBytes argv < fuel) (x : σ) :
    ketoptLoop body argv ostr fuel ketoptInit x = some ((shortOptions ostr argv.tail).foldlM body x) := by
  have hcome : ketoptInit.toCome ostr argv = shortOptions ostr argv.tail := by
    rw [toCome_zero rfl, ← List.drop_one]
    rfl
  have hbytes : argBytes argv.tail ≤ argBytes argv := by
    cases argv with
    | nil => exact le_refl _
    | cons a rest =>
      rw [List.tail_cons, argBytes, argBytes, List.map_cons, List.sum_cons]
      exact Nat.le_add_left ..
  rw [← hcome]
  refine ketoptLoop_toCome body (inside_of_pos_eq_zero rfl) ?_ x
  rw [hcome]
  exact ((shortOptions_length_le ostr _).trans hbytes).trans_lt hfuel

end ArionDp
