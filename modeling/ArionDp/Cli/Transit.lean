import ArionDp.Cli.Conf
import ArionDp.Lib.Shell

/-!
# The command `transit`

`main` of `trn_cli.c`, and `run_cmd`, which runs it through a shell.

* `mainLoop`, **`mainLoop_given`**: the options in front of the subcommand; the first server counts;
* `transitMain`: the subcommand on the node that answers for the server;
* **`transitMain_server`**, `callSubcmd_acts`, `callSubcmd_fails`: a command line with a server;
* `runCmd`, **`runCmd_words`**: the words of a command, as the arguments of `transit`.
-/

namespace ArionDp

open Wire JsonText PyText

/-- `"s:p:"` -/
def mainOstr : Bytes := ascii "s:p:"

/-- The option loop of `main`: where it ends, `server` and `protocol`; `none` without fuel. Only the first option of
each kind is kept. -/
def mainLoop (argv : List CStr) :
    ℕ → Ketopt → Option Bytes → Option Bytes → Option (Ketopt × Option Bytes × Option Bytes)
  | 0, _, _, _ => none
  | fuel + 1, om, server, protocol =>
    match ketopt om argv mainOstr with
    | (none, om) => some (om, server, protocol)
    | (some o, om) =>
      mainLoop argv fuel om (if server = none ∧ o = ch 's' then om.arg else server)
        (if protocol = none ∧ o = ch 'p' then om.arg else protocol)

/-- A table of subcommands: what each does with its configuration and the node. -/
abbrev Cmds (σ : Type) := List (Bytes × ConfAct σ)

/-- The nodes: the one whose daemon answers to `clnt_create`, by server and protocol, and the states of all. -/
structure Net (ι σ : Type) where
  clntCreate : Bytes → Bytes → Option ι
  nodes : ι → σ

section Main

variable {ι σ : Type} [DecidableEq ι]

/-- A node in another state. -/
def Net.update (net : Net ι σ) (i : ι) (x : σ) : Net ι σ :=
  { net with nodes := fun k => if k = i then x else net.nodes k }

/-- `main` from where it looks for the subcommand on -/
def callSubcmd (fs : FileSystem) (cmds : Cmds σ) (server protocol : Bytes) (cmd : CStr) (argv : List CStr)
    (net : Net ι σ) : Option (ℕ × Net ι σ) :=
  match cmds.find? fun c => c.1 = cmd.bytes with
  -- "invalidate subcommand %s."
  | none => some (1, net)
  | some c =>
    match net.clntCreate server protocol with
    | none => some (1, net)
    | some i => do
      let (ok, x) ← confSubcmd fs c.2 argv (net.nodes i)
      some (if ok then 0 else 1, net.update i x)

/-- `main`: the exit status, and the nodes; `none` if the process ends in another way. -/
def transitMain (fs : FileSystem) (cmds : Cmds σ) (argv : List CStr) (net : Net ι σ) : Option (ℕ × Net ι σ) := do
  let (om, server, protocol) ← mainLoop argv (argBytes argv + 1) ketoptInit none none
  -- "missing subcommand."
  if om.ind = argv.length then some (1, net)
  else
    callSubcmd fs cmds (server.getD (ascii "localhost")) (protocol.getD (ascii "udp")) (← argv[om.ind]?)
      (argv.drop om.ind) net

/-- A word of a command as an argument, in UTF-8; Python refuses a NUL. -/
def wordArg (w : List Char) : Option CStr := if h : 0 ∉ w.flatMap utf8 then some ⟨w.flatMap utf8, h⟩ else none

/-- `run_cmd` of a command that runs `transit`: the exit status of the command, which `returncode` does not have since
the process is not waited for, and the nodes after it; `none` if the shell is to do more than that. -/
def runCmd (fs : FileSystem) (cmds : Cmds σ) (cmd : List Char) (net : Net ι σ) : Option (ℕ × Net ι σ) := do
  let ws ← Shell.words cmd
  if ws.head? = some "/trn_bin/transit".toList then transitMain fs cmds (← ws.mapM wordArg) net else none

end Main

/-! ## The options of `main` -/

/-- The first argument of an option is kept. -/
theorem or_given_head (c : Char) (x : Option Bytes) (o : ShortOption) (os : List ShortOption) :
    (if x = none ∧ o.opt = ch c then o.arg else x).or (given c os).head? = x.or (given c (o :: os)).head? := by
  cases x with
  | some a => rw [if_neg fun h => Option.some_ne_none a h.1, Option.some_or, Option.some_or]
  | none =>
    by_cases hopt : o.opt = ch c
    · rw [if_pos ⟨rfl, hopt⟩, Option.none_or, given, given, List.filterMap_cons, if_pos hopt]
      cases o.arg <;> rfl
    · rw [if_neg fun h => hopt h.2, given_cons_of_ne hopt]

theorem mainLoop_toCome {argv : List CStr} {fuel : ℕ} {om : Ketopt} (hin : om.Inside argv)
    (hfuel : (om.toCome mainOstr argv).length < fuel) (server protocol : Option Bytes) :
    ∃ t, mainLoop argv fuel om server protocol =
      some (t, server.or (given 's' (om.toCome mainOstr argv)).head?,
        protocol.or (given 'p' (om.toCome mainOstr argv)).head?) := by
  induction fuel generalizing om server protocol with
  | zero => exact absurd hfuel (Nat.not_lt_zero _)
  | succ fuel ih =>
    rw [mainLoop]
    obtain ⟨hcall, hcome⟩ | ⟨c, t, hcall, hin', hcome⟩ := ketopt_spec mainOstr hin
    · rw [hcome]
      rcases hk : ketopt om argv mainOstr with ⟨o, t⟩
      rw [hk] at hcall
      obtain rfl : o = none := hcall
      exact ⟨t, by simp [given]⟩
    · rw [hcome, List.length_cons] at hfuel
      obtain ⟨t', ht'⟩ := ih hin' (by omega) (if server = none ∧ c = ch 's' then t.arg else server)
        (if protocol = none ∧ c = ch 'p' then t.arg else protocol)
      refine ⟨t', ?_⟩
      rw [hcall, hcome, ← or_given_head 's' server ⟨c, t.arg⟩, ← or_given_head 'p' protocol ⟨c, t.arg⟩]
      exact ht'

/-- **The option loop ends**, with the first server and the first protocol. -/
theorem mainLoop_given (argv : List CStr) : ∃ t, mainLoop argv (argBytes argv + 1) ketoptInit none none =
    some (t, (given 's' (shortOptions mainOstr argv.tail)).head?,
      (given 'p' (shortOptions mainOstr argv.tail)).head?) := by
  have hcome : ketoptInit.toCome mainOstr argv = shortOptions mainOstr argv.tail := by
    rw [toCome_zero rfl, ← List.drop_one]
    rfl
  have hlen : (shortOptions mainOstr argv.tail).length < argBytes argv + 1 := by
    have hle := shortOptions_length_le mainOstr argv.tail
    cases argv with
    | nil => exact Nat.succ_pos _
    | cons a argv =>
      rw [argBytes, List.map_cons, List.sum_cons, ← argBytes]
      exact Nat.lt_succ_of_le (hle.trans (Nat.le_add_left _ _))
  rw [← hcome]
  exact mainLoop_toCome (inside_of_pos_eq_zero rfl) (by rwa [hcome]) none none

/-- `-s` -/
def dashS : CStr := ⟨ascii "-s", by decide⟩

/-- A word that does not start with a dash. -/
def CStr.NoDash (a : CStr) : Prop := a.get 0 ≠ ch '-'

/-- A server, and then a subcommand. -/
theorem mainLoop_server (prog server : CStr) {name : CStr} (hname : name.NoDash) (rest : List CStr) :
    ∃ om, mainLoop (prog :: dashS :: server :: name :: rest)
      (argBytes (prog :: dashS :: server :: name :: rest) + 1) ketoptInit none none =
        some (om, some server.bytes, none) ∧ om.ind = 3 := by
  have hfirst : ketopt ketoptInit (prog :: dashS :: server :: name :: rest) mainOstr =
      (some (ch 's'), ⟨3, ch 's', some server.bytes, 3, 0⟩) := by
    have hkind : optKind mainOstr (dashS.get 1) = .argument := by decide
    have hend : dashS.get (1 + 1) = 0 := by decide
    rw [ketopt]
    simp only [ketoptInit, List.getElem?_cons_succ, List.getElem?_cons_zero]
    rw [if_neg (by decide), if_neg (by decide), ketoptShort]
    simp only [if_true, hkind, hend, List.getElem?_cons_succ, List.getElem?_cons_zero, Ketopt.finish]
    rfl
  have hsecond : ketopt ⟨3, ch 's', some server.bytes, 3, 0⟩ (prog :: dashS :: server :: name :: rest) mainOstr =
      (none, ⟨3, ch 's', none, 3, 0⟩) := by
    rw [ketopt]
    simp only [List.getElem?_cons_succ, List.getElem?_cons_zero]
    rw [if_pos (.inl hname)]
  obtain ⟨n, hn⟩ : ∃ n, argBytes (prog :: dashS :: server :: name :: rest) + 1 = n + 2 := by
    have hdash : dashS.strlen = 2 := rfl
    exact ⟨prog.strlen + (server.strlen + argBytes (name :: rest)) + 1, by
      simp only [argBytes, List.map_cons, List.sum_cons, hdash]
      omega⟩
  refine ⟨⟨3, ch 's', none, 3, 0⟩, ?_, rfl⟩
  rw [hn, mainLoop, hfirst]
  simp only
  rw [mainLoop, hsecond]
  rfl

/-- A node in the state that it is in. -/
theorem Net.update_nodes {ι σ : Type} [DecidableEq ι] (net : Net ι σ) (i : ι) : net.update i (net.nodes i) = net := by
  rw [Net.update]
  congr 1
  funext k
  split_ifs with hk
  · rw [hk]
  · rfl

section Commands

variable {ι σ : Type} [DecidableEq ι] (fs : FileSystem) (cmds : Cmds σ) (net : Net ι σ)

/-- **A command line with a server**: `main` goes on with the subcommand. -/
theorem transitMain_server (prog server : CStr) {name : CStr} (hname : name.NoDash) (rest : List CStr) :
    transitMain fs cmds (prog :: dashS :: server :: name :: rest) net =
      callSubcmd fs cmds server.bytes (ascii "udp") name (name :: rest) net := by
  obtain ⟨om, hloop, hind⟩ := mainLoop_server prog server hname rest
  have hne : ¬ 3 = (prog :: dashS :: server :: name :: rest).length := by
    simp only [List.length_cons]
    omega
  rw [transitMain, hloop]
  simp only [Option.bind_eq_bind, Option.bind_some, hind, if_neg hne, List.getElem?_cons_succ, List.getElem?_cons_zero,
    Option.getD_some, Option.getD_none, List.drop_succ_cons, List.drop_zero]

variable {fs cmds net} {server protocol : Bytes} {cmd : CStr} {argv : List CStr}

/-- The subcommand acts on the node that answers for the server. -/
theorem callSubcmd_acts {c : Bytes × ConfAct σ} (hc : cmds.find? (fun c => c.1 = cmd.bytes) = some c)
    {i : ι} (hi : net.clntCreate server protocol = some i) {r : Bool × σ}
    (hrun : confSubcmd fs c.2 argv (net.nodes i) = some r) :
    callSubcmd fs cmds server protocol cmd argv net = some (if r.1 then 0 else 1, net.update i r.2) := by
  simp only [callSubcmd, hc, hi, hrun, Option.bind_eq_bind, Option.bind_some]

/-- Without an answer nothing changes. -/
theorem callSubcmd_unanswered (hi : net.clntCreate server protocol = none) :
    callSubcmd fs cmds server protocol cmd argv net = some (1, net) := by
  unfold callSubcmd
  cases cmds.find? fun c => c.1 = cmd.bytes with
  | none => rfl
  | some c => simp only [hi]

/-- A subcommand that fails changes nothing, whether or not the server answers. -/
theorem callSubcmd_fails (hfails : ∀ c, cmds.find? (fun c => c.1 = cmd.bytes) = some c → ∀ x,
      confSubcmd fs c.2 argv x = some (false, x)) :
    callSubcmd fs cmds server protocol cmd argv net = some (1, net) := by
  unfold callSubcmd
  cases hc : cmds.find? fun c => c.1 = cmd.bytes with
  | none => rfl
  | some c =>
    cases net.clntCreate server protocol with
    | none => rfl
    | some i =>
      simp only [hfails c hc, Option.bind_eq_bind, Option.bind_some, Net.update_nodes, Bool.false_eq_true, if_false]

end Commands

/-! ## Commands through a shell -/

/-- A word in ASCII as an argument. -/
def argOf (w : List Char) (hw : ∀ c ∈ w, Ascii c) : CStr := ⟨bytesOf w, zero_notMem_bytesOf hw⟩

theorem wordArg_argOf {w : List Char} (hw : ∀ c ∈ w, Ascii c) : wordArg w = some (argOf w hw) := by
  have hbytes : w.flatMap utf8 = bytesOf w := flatMap_utf8 hw
  rw [wordArg, dif_pos (hbytes ▸ zero_notMem_bytesOf hw)]
  congr 1
  simp only [argOf, hbytes]

theorem mapM_wordArg {ws : List (List Char)} (hws : ∀ w ∈ ws, ∀ c ∈ w, Ascii c) :
    ws.mapM wordArg = some (ws.pmap argOf hws) := by
  induction ws with
  | nil => rfl
  | cons w ws ih =>
    rw [List.mapM_cons, wordArg_argOf (hws w List.mem_cons_self), ih fun v hv => hws v (List.mem_cons_of_mem w hv)]
    rfl

/-- **The words of a command** are the arguments of `transit`. -/
theorem runCmd_words {ι σ : Type} [DecidableEq ι] (fs : FileSystem) (cmds : Cmds σ) (net : Net ι σ)
    {cmd server name : List Char} {ws : List (List Char)}
    (hcmd : Shell.words cmd = some ("/trn_bin/transit".toList :: "-s".toList :: server :: name :: ws))
    (hserver : ∀ c ∈ server, Ascii c) (hname : ∀ c ∈ name, Ascii c) (hws : ∀ w ∈ ws, ∀ c ∈ w, Ascii c)
    (hdash : (argOf name hname).NoDash) :
    runCmd fs cmds cmd net = callSubcmd fs cmds (bytesOf server) (ascii "udp") (argOf name hname)
      (argOf name hname :: ws.pmap argOf hws) net := by
  have hall : ∀ w ∈ "/trn_bin/transit".toList :: "-s".toList :: server :: name :: ws, ∀ c ∈ w, Ascii c :=
    List.forall_mem_cons.2 ⟨by decide, List.forall_mem_cons.2 ⟨by decide, List.forall_mem_cons.2 ⟨hserver,
      List.forall_mem_cons.2 ⟨hname, hws⟩⟩⟩⟩
  rw [runCmd, hcmd]
  simp only [Option.bind_eq_bind, Option.bind_some, List.head?_cons, if_true, mapM_wordArg hall]
  exact transitMain_server fs cmds net _ (argOf server hserver) hdash _

end ArionDp
