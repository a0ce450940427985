import ArionDp.Cli.Ketopt

/-!
# Where a configuration comes from

`trn_cli_read_conf_str`: a configuration is the text behind `-j` or that of the file behind `-f`.

* `trnCliReadConfStr`, **`trnCliReadConfStr_of_short`**, **`trnCliReadConfStr_of_long`**: the last string and the last
  path count, if no path is too long;
* `ReadsConf`: one of the two is to be given, and is then read;
* `SourcesTold`, **`trnCliReadConfStr_reads_iff`**: the options for which that is so. No file is ever read.
-/

namespace ArionDp

open Wire

/-- `TRAN_MAX_PATH_SIZE` -/
abbrev tranMaxPathSize : ℕ := 256

/-- `TRAN_MAX_CLI_JSON_STR` -/
abbrev tranMaxCliJsonStr : ℕ := 10240

/-- An open file: its size, which `ftell` returns at its end, and the bytes that `fread` gets from it. -/
structure ConfFile where
  fsize : ℕ
  bytes : Bytes

/-- The files that `fopen` opens. There is none under the empty path. -/
structure FileSystem where
  fopen : Bytes → Option ConfFile
  fopen_nil : fopen [] = none

/-- How `trn_cli_read_conf_str` ends. -/
inductive ReadConf
  /-- The return of 0, with the bytes at `conf_str` -/
  | ok (confStr : Bytes)
  /-- The return of `-EINVAL` -/
  | einval (message : String)
  /-- `exit(1)` -/
  | exited (message : String)
  /-- `conf_str` is null where it is read. -/
  | nullConfStr
  /-- The argument of an option is null where it is read. -/
  | nullArg
  /-- There is no open file where one is read. -/
  | nullFile
  /-- A write behind the end of what `conf_str` points to -/
  | overrun
  deriving DecidableEq

/-- `conf->conf_str` and `conf_file` -/
structure ConfVars where
  confStr : Option Bytes
  confFile : Bytes
  deriving DecidableEq

/-- The body of the option loop. A string of `TRAN_MAX_CLI_JSON_STR` bytes and more is only reported. -/
def confOption (v : ConfVars) (o : ShortOption) : Except ReadConf ConfVars :=
  if o.opt = ch 'j' then match o.arg with
    | none => .error .nullArg
    | some arg => .ok { v with confStr := some arg }
  else if o.opt = ch 'f' then match o.arg with
    | none => .error .nullArg
    | some arg =>
      if tranMaxPathSize ≤ arg.length then
        .error (.einval ("file name over limit " ++ toString arg.length ++ "/" ++ toString tranMaxPathSize))
      else .ok { v with confFile := arg }
  else .ok v

/-- The file is read to where `conf_str` points, which has room for the string there and its NUL. -/
def readConfFile (fs : FileSystem) (confStr confFile : Bytes) : ReadConf :=
  match fs.fopen confFile with
  | none => .nullFile
  | some f =>
    let text := f.bytes.take f.fsize
    if tranMaxCliJsonStr ≤ f.fsize then .exited "Configuration file partially loaded."
    else if confStr.length + 1 < text.length then .overrun
    else if text.length < f.fsize then .exited "Configuration file partially loaded."
    else if confStr.length < f.fsize then .overrun
    else .ok text

/-- `trn_cli_read_conf_str` behind the option loop -/
def readConf (fs : FileSystem) (v : ConfVars) : ReadConf :=
  if v.confStr = none ∧ v.confFile = [] then .einval "Missing configuration string or configuration file."
  else match v.confStr with
    | none => .nullConfStr
    | some confStr =>
      if confStr ≠ [] ∧ v.confFile ≠ [] then
        .einval "Either configuration string or configuration file is expected. Providing both is ambiguous."
      else if v.confFile ≠ [] then readConfFile fs confStr v.confFile
      else .ok confStr

/-- `"f:j:"` -/
def confOstr : Bytes := [ch 'f', ch ':', ch 'j', ch ':']

/-- `trn_cli_read_conf_str`, called with `KETOPT_INIT`; `none` if its loop does not end -/
def trnCliReadConfStr (fs : FileSystem) (argv : List CStr) : Option ReadConf :=
  (ketoptLoop confOption argv confOstr (argBytes argv + 1) ketoptInit ⟨none, []⟩).map fun r => match r with
    | .error e => e
    | .ok v => readConf fs v

/-! ## The option loop -/

/-- The arguments of an option, in their order. -/
def given (c : Char) (os : List ShortOption) : List Bytes :=
  os.filterMap fun o => if o.opt = ch c then o.arg else none

variable {c : Char} {o : ShortOption} {os : List ShortOption}

theorem given_cons {arg : Bytes} (h : o.opt = ch c) (harg : o.arg = some arg) :
    given c (o :: os) = arg :: given c os :=
  List.filterMap_cons_some ((if_pos h).trans harg)

theorem given_cons_of_ne (h : o.opt ≠ ch c) : given c (o :: os) = given c os :=
  List.filterMap_cons_none (if_neg h)

/-- No path is too long. -/
def PathsShort (os : List ShortOption) : Prop := ∀ path ∈ given 'f' os, path.length < tranMaxPathSize

/-- The options that are read have their argument. -/
def ArgsThere (os : List ShortOption) : Prop := ∀ o ∈ os, o.opt = ch 'j' ∨ o.opt = ch 'f' → o.arg ≠ none

theorem argsThere_shortOptions (args : List CStr) : ArgsThere (shortOptions confOstr args) := by
  intro o ho hopt harg
  have halone := shortOptions_arg ho harg
  unfold ShortOption.Alone at halone
  obtain h | h := hopt <;> rw [h] at halone <;> revert halone <;> decide

theorem j_ne_f : ch 'j' ≠ ch 'f' := by decide

/-- One round of the loop, with an option that is read or not. -/
theorem confOption_cases (v : ConfVars) (h : o.opt = ch 'j' ∨ o.opt = ch 'f' → o.arg ≠ none) :
    (∃ arg, o.opt = ch 'j' ∧ o.arg = some arg ∧ confOption v o = .ok { v with confStr := some arg }) ∨
    (∃ arg, o.opt = ch 'f' ∧ o.arg = some arg ∧ arg.length < tranMaxPathSize ∧
      confOption v o = .ok { v with confFile := arg }) ∨
    (∃ arg message, o.opt = ch 'f' ∧ o.arg = some arg ∧ tranMaxPathSize ≤ arg.length ∧
      confOption v o = .error (.einval message)) ∨
    (o.opt ≠ ch 'j' ∧ o.opt ≠ ch 'f' ∧ confOption v o = .ok v) := by
  unfold confOption
  by_cases hj : o.opt = ch 'j'
  · obtain ⟨arg, harg⟩ := Option.ne_none_iff_exists'.1 (h (.inl hj))
    exact .inl ⟨arg, hj, harg, by rw [if_pos hj, harg]⟩
  · by_cases hf : o.opt = ch 'f'
    · obtain ⟨arg, harg⟩ := Option.ne_none_iff_exists'.1 (h (.inr hf))
      rw [if_neg hj, if_pos hf, harg]
      by_cases hlong : tranMaxPathSize ≤ arg.length
      · exact .inr (.inr (.inl ⟨arg, _, hf, rfl, hlong, if_pos hlong⟩))
      · exact .inr (.inl ⟨arg, hf, rfl, not_le.1 hlong, if_neg hlong⟩)
    · exact .inr (.inr (.inr ⟨hj, hf, by rw [if_neg hj, if_neg hf]⟩))

/-- What the loop has kept behind some options. -/
def kept (os : List ShortOption) (v : ConfVars) : ConfVars :=
  ⟨(given 'j' os).getLast?.or v.confStr, (given 'f' os).getLast?.getD v.confFile⟩

/-- The loop keeps the last string and the last path, or refuses a path that is too long. -/
theorem foldlM_confOption (hargs : ArgsThere os) (v : ConfVars) :
    (PathsShort os → os.foldlM confOption v = .ok (kept os v)) ∧
      (¬ PathsShort os → ∃ message, os.foldlM confOption v = .error (.einval message)) := by
  induction os generalizing v with
  | nil => exact ⟨fun _ => rfl, fun h => absurd (fun p hp => absurd hp List.not_mem_nil) h⟩
  | cons o os ih =>
    have ih' := ih fun p hp => hargs p (List.mem_cons_of_mem o hp)
    rw [List.foldlM_cons]
    obtain ⟨arg, hj, harg, hrun⟩ | ⟨arg, hf, harg, hlen, hrun⟩ | ⟨arg, message, hf, harg, hlong, hrun⟩ |
      ⟨hj, hf, hrun⟩ := confOption_cases v (hargs o List.mem_cons_self)
    · have hne : o.opt ≠ ch 'f' := hj ▸ j_ne_f
      have hkept : kept (o :: os) v = kept os { v with confStr := some arg } := by
        rw [kept, kept, given_cons hj harg, given_cons_of_ne hne, List.getLast?_cons]
        cases (given 'j' os).getLast? <;> rfl
      rw [hrun, hkept, PathsShort, given_cons_of_ne hne]
      exact ih' _
    · have hne : o.opt ≠ ch 'j' := hf ▸ j_ne_f.symm
      have hkept : kept (o :: os) v = kept os { v with confFile := arg } := by
        rw [kept, kept, given_cons hf harg, given_cons_of_ne hne, List.getLast?_cons]
        rfl
      rw [hrun, hkept, PathsShort, given_cons hf harg, List.forall_mem_cons, and_iff_right hlen]
      exact ih' _
    · refine ⟨fun hshort => ?_, fun _ => ⟨message, by rw [hrun]; rfl⟩⟩
      have hlt := hshort arg (given_cons hf harg ▸ List.mem_cons_self)
      exact absurd hlt (not_lt.2 hlong)
    · have hkept : kept (o :: os) v = kept os v := by
        rw [kept, kept, given_cons_of_ne hj, given_cons_of_ne hf]
      rw [hrun, hkept, PathsShort, given_cons_of_ne hf]
      exact ih' v

section Run

variable (fs : FileSystem) (argv : List CStr)

/-- The options of a command line behind the name of the program. -/
def confOptions : List ShortOption := shortOptions confOstr argv.tail

variable {argv}

/-- **With short paths** the last string and the last path count. -/
theorem trnCliReadConfStr_of_short (h : PathsShort (confOptions argv)) :
    trnCliReadConfStr fs argv = some (readConf fs (kept (confOptions argv) ⟨none, []⟩)) := by
  have hrun := (foldlM_confOption (argsThere_shortOptions argv.tail) ⟨none, []⟩).1 h
  rw [trnCliReadConfStr, ketoptLoop_eq confOption (Nat.lt_succ_self _), hrun]
  rfl

/-- **A path that is too long** is refused, whatever else is given. -/
theorem trnCliReadConfStr_of_long (h : ¬ PathsShort (confOptions argv)) :
    ∃ message, trnCliReadConfStr fs argv = some (.einval message) := by
  obtain ⟨message, hrun⟩ := (foldlM_confOption (argsThere_shortOptions argv.tail) ⟨none, []⟩).2 h
  refine ⟨message, ?_⟩
  rw [trnCliReadConfStr, ketoptLoop_eq confOption (Nat.lt_succ_self _), hrun]
  rfl

end Run

/-! ## The two sources -/

/-- A file that can be read, of fewer than `TRAN_MAX_CLI_JSON_STR` bytes, and its text. -/
def FileSystem.Holds (fs : FileSystem) (path text : Bytes) : Prop :=
  ∃ f, fs.fopen path = some f ∧ f.fsize < tranMaxCliJsonStr ∧ f.fsize ≤ f.bytes.length ∧ text = f.bytes.take f.fsize

/-- The text of the configuration, if there is one source of it: the last string, or the file under the last path. -/
def ConfText (fs : FileSystem) (os : List ShortOption) (text : Bytes) : Prop :=
  (given 'f' os = [] ∧ (given 'j' os).getLast? = some text) ∨
    (given 'j' os = [] ∧ PathsShort os ∧ ∃ path, (given 'f' os).getLast? = some path ∧ fs.Holds path text)

/-- **A configuration is read** from its one source, and both or none are refused. -/
structure ReadsConf (fs : FileSystem) (os : List ShortOption) (r : ReadConf) : Prop where
  notNull : r ≠ .nullConfStr
  returns : ∀ text, r = .ok text ↔ ConfText fs os text
  refuses : (given 'j' os = [] ↔ given 'f' os = []) → ∃ message, r = .einval message

/-- **No path is given**, one is too long, the last one is empty and there is no string, or neither the last path nor
the last string is empty. -/
def SourcesTold (os : List ShortOption) : Prop :=
  given 'f' os = [] ∨ ¬ PathsShort os ∨ ((given 'f' os).getLast? = some [] ∧ given 'j' os = []) ∨
    ∃ path confStr, (given 'f' os).getLast? = some path ∧ (given 'j' os).getLast? = some confStr ∧
      path ≠ [] ∧ confStr ≠ []

theorem not_holds_nil (fs : FileSystem) (text : Bytes) : ¬ fs.Holds [] text := by
  rintro ⟨f, hf, -⟩
  exact absurd (fs.fopen_nil.symm.trans hf) (Option.some_ne_none f).symm

theorem not_confText (fs : FileSystem) (hf : given 'f' os ≠ []) (h : given 'j' os ≠ [] ∨ ¬ PathsShort os)
    (text : Bytes) : ¬ ConfText fs os text := by
  rintro (⟨hnil, -⟩ | ⟨hnil, hshort, -⟩)
  · exact hf hnil
  · exact h.elim (absurd hnil) (absurd hshort)

/-- A refusal is right if there is no source to read, or more than one. -/
theorem readsConf_einval (fs : FileSystem) (h : ∀ text, ¬ ConfText fs os text) (message : String) :
    ReadsConf fs os (.einval message) :=
  ⟨nofun, fun text => ⟨nofun, fun htext => absurd htext (h text)⟩, fun _ => ⟨message, rfl⟩⟩

/-- The file is read or not, but the options are no longer refused. -/
theorem readConfFile_ne_einval (fs : FileSystem) (confStr confFile : Bytes) (message : String) :
    readConfFile fs confStr confFile ≠ .einval message := by
  unfold readConfFile
  cases fs.fopen confFile with
  | none => nofun
  | some f =>
    dsimp only
    split_ifs <;> nofun

theorem readConf_string (fs : FileSystem) (confStr : Bytes) : readConf fs ⟨some confStr, []⟩ = .ok confStr := by
  simp [readConf]

theorem readConf_both (fs : FileSystem) {confStr path : Bytes} (hstr : confStr ≠ []) (hpath : path ≠ []) :
    ∃ message, readConf fs ⟨some confStr, path⟩ = .einval message := by
  simp [readConf, hstr, hpath]

theorem readConf_emptyString (fs : FileSystem) {path : Bytes} (hpath : path ≠ []) :
    readConf fs ⟨some [], path⟩ = readConfFile fs [] path := by
  simp [readConf, hpath]

theorem given_ne_nil {arg : Bytes} (h : (given c os).getLast? = some arg) : given c os ≠ [] :=
  List.ne_nil_of_mem (List.mem_of_getLast? h)

/-- Without a path, a string is the configuration. -/
theorem readsConf_of_no_path (fs : FileSystem) (hf : given 'f' os = []) :
    ReadsConf fs os (readConf fs ⟨(given 'j' os).getLast?, []⟩) := by
  cases hj : (given 'j' os).getLast? with
  | none =>
    refine readsConf_einval fs (fun text => ?_) _
    rintro (⟨-, hlast⟩ | ⟨-, -, path, hlast, -⟩)
    · exact Option.some_ne_none text (hlast.symm.trans hj)
    · exact given_ne_nil hlast hf
  | some confStr =>
    have hne : given 'j' os ≠ [] := given_ne_nil hj
    rw [readConf_string]
    refine ⟨nofun, fun text => ?_, fun hboth => absurd (hboth.2 hf) hne⟩
    rw [ReadConf.ok.injEq, ConfText, and_iff_right hf, hj, Option.some.injEq, or_iff_left fun h => hne h.1]

/-- A path without a string is read right if it is empty, and so refused. -/
theorem readsConf_of_path (fs : FileSystem) {path : Bytes} (hpath : (given 'f' os).getLast? = some path) :
    ReadsConf fs os (readConf fs ⟨none, path⟩) ↔ path = [] := by
  constructor
  · intro h
    by_contra hne
    exact h.notNull (if_neg fun hboth => hne hboth.2)
  · rintro rfl
    refine readsConf_einval fs (fun text => ?_) _
    rintro (⟨hno, -⟩ | ⟨-, -, p, hlast, hholds⟩)
    · exact given_ne_nil hpath hno
    · obtain rfl : p = [] := Option.some.inj (hlast.symm.trans hpath)
      exact not_holds_nil fs text hholds

/-- A path and a string are refused if neither is empty. -/
theorem readsConf_of_both (fs : FileSystem) {path confStr : Bytes} (hpath : (given 'f' os).getLast? = some path)
    (hstr : (given 'j' os).getLast? = some confStr) :
    ReadsConf fs os (readConf fs ⟨some confStr, path⟩) ↔ path ≠ [] ∧ confStr ≠ [] := by
  have hf : given 'f' os ≠ [] := given_ne_nil hpath
  have hj : given 'j' os ≠ [] := given_ne_nil hstr
  constructor
  · intro h
    obtain ⟨message, hrun⟩ := h.refuses (iff_of_false hj hf)
    refine ⟨?_, ?_⟩
    · rintro rfl
      rw [readConf_string] at hrun
      exact ReadConf.noConfusion hrun
    · rintro rfl
      by_cases hempty : path = []
      · rw [hempty, readConf_string] at hrun
        exact ReadConf.noConfusion hrun
      · rw [readConf_emptyString fs hempty] at hrun
        exact readConfFile_ne_einval fs [] path message hrun
  · rintro ⟨hp, hs⟩
    obtain ⟨message, hrun⟩ := readConf_both fs hs hp
    rw [hrun]
    exact readsConf_einval fs (not_confText fs hf (.inl hj)) message

/-- **The option is read as promised** exactly if the sources are told apart. For a path alone they are not: `conf_str`
is read to see whether both are given, and is null then. -/
theorem trnCliReadConfStr_reads_iff (fs : FileSystem) (argv : List CStr) :
    (∃ r, trnCliReadConfStr fs argv = some r ∧ ReadsConf fs (confOptions argv) r) ↔
      SourcesTold (confOptions argv) := by
  unfold SourcesTold
  by_cases hshort : PathsShort (confOptions argv)
  · rw [trnCliReadConfStr_of_short fs hshort]
    simp only [Option.some.injEq, exists_eq_left', kept, Option.or_none]
    cases hpath : (given 'f' (confOptions argv)).getLast? with
    | none =>
      have hf : given 'f' (confOptions argv) = [] := List.getLast?_eq_none_iff.1 hpath
      exact iff_of_true (readsConf_of_no_path fs hf) (.inl hf)
    | some path =>
      rw [Option.getD_some, or_iff_right (given_ne_nil hpath), or_iff_right (not_not.2 hshort)]
      cases hstr : (given 'j' (confOptions argv)).getLast? with
      | none =>
        have hj : given 'j' (confOptions argv) = [] := List.getLast?_eq_none_iff.1 hstr
        simp [readsConf_of_path fs hpath, hj]
      | some confStr => simp [readsConf_of_both fs hpath hstr, given_ne_nil hstr]
  · obtain ⟨message, hrun⟩ := trnCliReadConfStr_of_long fs hshort
    have hf : given 'f' (confOptions argv) ≠ [] := fun hnil =>
      hshort fun p hp => absurd (hnil ▸ hp) List.not_mem_nil
    exact iff_of_true ⟨_, hrun, readsConf_einval fs (not_confText fs hf (.inr hshort)) message⟩
      (.inr (.inl hshort))

/-- One file `a` of two bytes. -/
def oneConfFile : FileSystem where
  fopen path := if path = [ch 'a'] then some ⟨2, [ch '{', ch '}']⟩ else none
  fopen_nil := by decide

/-- `trn_cli -f a` -/
def pathAlone : List CStr :=
  [⟨[ch 't'], by decide⟩, ⟨[ch '-', ch 'f'], by decide⟩, ⟨[ch 'a'], by decide⟩]

/-- **A path alone** names the configuration, and the null pointer is read. -/
theorem trnCliReadConfStr_null :
    ConfText oneConfFile (confOptions pathAlone) [ch '{', ch '}'] ∧
      trnCliReadConfStr oneConfFile pathAlone = some .nullConfStr ∧
      ¬ ∃ r, trnCliReadConfStr oneConfFile pathAlone = some r ∧ ReadsConf oneConfFile (confOptions pathAlone) r := by
  have hrun : trnCliReadConfStr oneConfFile pathAlone = some .nullConfStr := by decide
  have hpaths : given 'f' (confOptions pathAlone) = [[ch 'a']] := by decide
  refine ⟨.inr ⟨by decide, ?_, [ch 'a'], by rw [hpaths]; rfl, _, rfl, by decide, by decide, rfl⟩, hrun, ?_⟩
  · rw [PathsShort, hpaths]
    decide
  · rintro ⟨r, hr, hreads⟩
    exact hreads.notNull (Option.some.inj (hr.symm.trans hrun))

end ArionDp
