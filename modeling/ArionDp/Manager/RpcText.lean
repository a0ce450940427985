import ArionDp.Cli.Buffers
import ArionDp.Cli.Transit
import ArionDp.Dmn.Node
import ArionDp.Manager.ItfConf

/-!
# Requests as commands

`TrnRpc` of `rpc.py`: every request to a node is a command line, which a shell takes apart and `transit` carries out.

* `cmds`: the subcommands of `transit`, on a node;
* `TrnRpcCall`, `TrnRpc.command`: the methods, and their commands;
* **`lex_quotedConf`**: a configuration in quotes is one argument;
* `runCmd_quoted`, **`runCmd_reaches`**: the subcommand gets the configuration that the method made.
-/

namespace ArionDp

open Wire JsonText PyText

/-! ## Subcommands -/

instance : DecidablePred CliWrite.Fits
  | .interface bytes => inferInstanceAs (Decidable (bytes ≤ tranMaxItfSize))
  | .entrance i => inferInstanceAs (Decidable (i < tranMaxZgcEntrances))

/-- A subcommand with what its parser writes: it is undefined if that does not stay in the buffers. -/
def writingCmd {α : Type} (writes : CJson → Emit CliWrite String α) (act : CJson → Node → Bool × Node) : ConfAct Node :=
  fun conf x => if ∀ w ∈ (writes conf).writes, w.Fits then some (act conf x) else none

/-- A subcommand that parses its configuration, and sends what it has got. -/
def parsedCmd {α : Type} (parse : CJson → Except String α) (send : α → Node → Bool × Node) (conf : CJson) (x : Node) :
    Bool × Node :=
  match parse conf with
  | .error _ => (false, x)
  | .ok a => send a x

/-- `cmds` -/
def cmds (L : Loader) : Cmds Node :=
  [(ascii "load-transit-xdp", writingCmd xdpWrites (parsedCmd trnCliParseXdp L.loadTransitXdp)),
    (ascii "unload-transit-xdp", writingCmd xdpWrites (parsedCmd trnCliParseXdp L.unloadTransitXdp)),
    (ascii "update-droplet", writingCmd dropletWrites (parsedCmd trnCliParseDroplet Node.updateDroplet)),
    (ascii "update-ep", fun conf x => some (parsedCmd trnCliParseEp Node.updateEp conf x)),
    (ascii "get-ep", fun conf x => some (parsedCmd trnCliParseEpKey Node.getEp conf x)),
    (ascii "delete-ep", fun conf x => some (parsedCmd trnCliParseEpKey Node.deleteEp conf x)),
    (ascii "load-ebpf-prog", fun conf x => some (parsedCmd trnCliParseEbpfProg L.loadTransitXdpEbpf conf x)),
    (ascii "unload-ebpf-prog", fun conf x => some (parsedCmd trnCliParseEbpfProg L.unloadTransitXdpEbpf conf x))]

/-! ## Methods -/

/-- `TrnRpc` -/
structure TrnRpc where
  ip : Text
  benchmark : Bool

/-- A method with what it puts into its configuration: its arguments, or fields of them. -/
inductive TrnRpcCall
  | loadTransitXdp (itfTenant itfZgc : Text) (iboPort : ℤ)
  | unloadTransitXdp (itfTenant itfZgc : Text)
  | updateDroplet (itfConf : Json ℤ)
  | updateDft (id table : Json ℤ)
  | updateChain (id tail : Json ℤ)
  | updateFtn (id position ip mac nextIp nextMac : Json ℤ)
  | getDft (dftId : Json ℤ)
  | getChain (chainId : Json ℤ)
  | getFtn (ftnId : Json ℤ)
  | deleteDft (dftId : Json ℤ)
  | deleteChain (chainId : Json ℤ)
  | deleteFtn (ftnId : Json ℤ)
  | updateSubstrateEp (ip mac : Json ℤ)
  | updateEp (epConf : Json ℤ)
  | deleteSubstrateEp (ip : Json ℤ)
  | deleteEp (tunnelId ip : Json ℤ)

namespace TrnRpcCall

/-- The subcommand of a method -/
def subcmd : TrnRpcCall → String
  | loadTransitXdp .. => "load-transit-xdp"
  | unloadTransitXdp .. => "unload-transit-xdp"
  | updateDroplet .. => "update-droplet"
  | updateDft .. => "update-dft"
  | updateChain .. => "update-chain"
  | updateFtn .. => "update-ftn"
  | getDft .. => "get-dft"
  | getChain .. => "get-chain"
  | getFtn .. => "get-ftn"
  | deleteDft .. => "delete-dft"
  | deleteChain .. => "delete-chain"
  | deleteFtn .. => "delete-ep"
  | updateSubstrateEp .. => "update-ep"
  | updateEp .. => "update-ep"
  | deleteSubstrateEp .. => "delete-ep"
  | deleteEp .. => "delete-ep"

/-- `debug_mode` -/
def debugMode (benchmark : Bool) : ℤ := if benchmark then 0 else 1

/-- `jsonconf` -/
def jsonconf (benchmark : Bool) : TrnRpcCall → Json ℤ
  | loadTransitXdp itfTenant itfZgc iboPort =>
    .obj [("itf_tenant".toList, .str itfTenant), ("itf_zgc".toList, .str itfZgc), ("ibo_port".toList, .num iboPort),
      ("debug_mode".toList, .num (debugMode benchmark))]
  | unloadTransitXdp itfTenant itfZgc =>
    .obj [("itf_tenant".toList, .str itfTenant), ("itf_zgc".toList, .str itfZgc), ("ibo_port".toList, .num 0),
      ("debug_mode".toList, .num (debugMode benchmark))]
  | updateDroplet itfConf => itfConf
  | updateDft id table => .obj [("id".toList, id), ("table".toList, table)]
  | updateChain id tail => .obj [("id".toList, id), ("tail_ftn".toList, tail)]
  | updateFtn id position ip mac nextIp nextMac =>
    .obj [("id".toList, id), ("ftn_position".toList, position), ("ip".toList, ip), ("mac".toList, mac),
      ("next_ip".toList, nextIp), ("next_mac".toList, nextMac)]
  | getDft dftId => .obj [("id".toList, dftId)]
  | getChain chainId => .obj [("id".toList, chainId)]
  | getFtn ftnId => .obj [("id".toList, ftnId)]
  | deleteDft dftId => .obj [("id".toList, dftId)]
  | deleteChain chainId => .obj [("id".toList, chainId)]
  | deleteFtn ftnId => .obj [("id".toList, ftnId)]
  | updateSubstrateEp ip mac =>
    .obj [("tunnel_id".toList, .str ['0']), ("ip".toList, ip), ("eptype".toList, .str ['0']), ("mac".toList, mac),
      ("veth".toList, .str []), ("remote_ips".toList, .arr [.str []]), ("hosted_iface".toList, .str [])]
  | updateEp epConf => epConf
  | deleteSubstrateEp ip => .obj [("tunnel_id".toList, .str ['0']), ("ip".toList, ip)]
  | deleteEp tunnelId ip => .obj [("tunnel_id".toList, tunnelId), ("ip".toList, ip)]

/-- The configuration in the command. `unload_transit_xdp` leaves out the quotes. -/
def confText (benchmark : Bool) (c : TrnRpcCall) : List Char :=
  match c with
  | loadTransitXdp .. => '\'' :: (dumps (c.jsonconf benchmark) ++ ['\'', ' '])
  | unloadTransitXdp .. => dumps (c.jsonconf benchmark) ++ [' ']
  | _ => '\'' :: (dumps (c.jsonconf benchmark) ++ ['\''])

end TrnRpcCall

namespace TrnRpc

/-- `trn_cli` -/
def trnCli (rpc : TrnRpc) : List Char := "/trn_bin/transit".toList ++ ' ' :: ("-s".toList ++ ' ' :: (rpc.ip ++ [' ']))

/-- `cmd` -/
def command (rpc : TrnRpc) (c : TrnRpcCall) : List Char :=
  rpc.trnCli ++ ' ' :: (c.subcmd.toList ++ ' ' :: ("-j".toList ++ ' ' :: c.confText rpc.benchmark))

/-- The address of the node is one word. -/
structure Addressed (rpc : TrnRpc) : Prop where
  plain : ∀ c ∈ rpc.ip, Shell.plain c = true
  ne_nil : rpc.ip ≠ []

end TrnRpc

/-! ## Words -/

theorem printable_of_plain {c : Char} (h : Shell.plain c = true) : Printable c := by
  have hothers : ∀ d ∈ "/_-.:,{}@%+".toList, Printable d := by decide
  rw [Shell.plain, Bool.or_eq_true] at h
  refine h.elim (fun halnum => ?_) fun hc => hothers c (of_decide_eq_true hc)
  change (decide ('A'.val ≤ c.val ∧ c.val ≤ 'Z'.val) || (decide ('a'.val ≤ c.val) && decide (c.val ≤ 'z'.val)) ||
    (decide ('0'.val ≤ c.val) && decide (c.val ≤ '9'.val))) = true at halnum
  simp only [Bool.or_eq_true, Bool.and_eq_true, decide_eq_true_eq, UInt32.le_iff_toNat_le] at halnum
  change (65 ≤ c.toNat ∧ c.toNat ≤ 90 ∨ 97 ≤ c.toNat ∧ c.toNat ≤ 122) ∨ 48 ≤ c.toNat ∧ c.toNat ≤ 57 at halnum
  change 32 ≤ c.toNat ∧ c.toNat ≤ 126
  omega

theorem ascii_of_printable {c : Char} (h : Printable c) : Ascii c := by
  change 32 ≤ c.toNat ∧ c.toNat ≤ 126 at h
  exact ⟨by omega, by omega⟩

theorem ascii_of_plain {c : Char} (h : Shell.plain c = true) : Ascii c := ascii_of_printable (printable_of_plain h)

theorem strcpySize_of_ascii {s : Text} (hs : ∀ c ∈ s, Ascii c) : strcpySize s = s.length + 1 := by
  have hne : ∀ c ∈ s, (c.toNat != 0) = true := fun c hc => bne_iff_ne.2 (hs c hc).1.ne'
  have hsize : ∀ c ∈ s, c.utf8Size = 1 := fun c hc =>
    Char.utf8Size_eq_one_iff.2 (show c.val ≤ 0x7F from Nat.le_of_lt_succ (hs c hc).2)
  rw [strcpySize, List.takeWhile_eq_self_iff.2 hne, List.map_congr_left hsize, List.map_const', List.sum_replicate_nat,
    Nat.mul_one]

theorem ascii_dumps (j : Json ℤ) : ∀ c ∈ dumps j, Ascii c := fun c hc => ascii_of_printable (printable_dumps j c hc)

namespace TrnRpcCall

/-- The name of a subcommand is one word, and no option. -/
theorem subcmd_spec (c : TrnRpcCall) : (∀ d ∈ c.subcmd.toList, Shell.plain d = true) ∧ c.subcmd.toList ≠ [] ∧
    (bytesOf c.subcmd.toList).getD 0 0 ≠ ch '-' := by
  cases c <;> (rw [subcmd]; decide)

/-- A subcommand as an argument. -/
def subcmdArg (c : TrnRpcCall) : CStr := argOf c.subcmd.toList fun d hd => ascii_of_plain (c.subcmd_spec.1 d hd)

theorem noDash_subcmdArg (c : TrnRpcCall) : c.subcmdArg.NoDash := c.subcmd_spec.2.2

end TrnRpcCall

namespace TrnRpc

variable {rpc : TrnRpc}

/-- The words in front of a configuration. -/
theorem lex_command (hrpc : rpc.Addressed) (c : TrnRpcCall) : Shell.lex .bare none (rpc.command c) =
    (Shell.lex .bare none (c.confText rpc.benchmark)).map fun ws =>
      "/trn_bin/transit".toList :: "-s".toList :: rpc.ip :: c.subcmd.toList :: "-j".toList :: ws := by
  have hassoc (a b ip d j conf : List Char) : (a ++ ' ' :: (b ++ ' ' :: (ip ++ [' ']))) ++
      ' ' :: (d ++ ' ' :: (j ++ ' ' :: conf)) =
        a ++ ' ' :: (b ++ ' ' :: (ip ++ ' ' :: (' ' :: (d ++ ' ' :: (j ++ ' ' :: conf))))) := by
    simp
  have htext : rpc.command c = "/trn_bin/transit".toList ++ ' ' :: ("-s".toList ++ ' ' :: (rpc.ip ++ ' ' :: (' ' ::
      (c.subcmd.toList ++ ' ' :: ("-j".toList ++ ' ' :: c.confText rpc.benchmark))))) := by
    unfold command trnCli
    exact hassoc _ _ _ _ _ _
  rw [htext, Shell.lex_word (by decide) (by decide), Shell.lex_word (by decide) (by decide),
    Shell.lex_word hrpc.plain hrpc.ne_nil, Shell.lex_space, Shell.lex_word c.subcmd_spec.1 c.subcmd_spec.2.1,
    Shell.lex_word (by decide) (by decide)]
  cases Shell.lex .bare none (c.confText rpc.benchmark) <;> rfl

theorem words_command (hrpc : rpc.Addressed) {c : TrnRpcCall} {ws : List (List Char)}
    (hws : Shell.lex .bare none (c.confText rpc.benchmark) = some ws) : Shell.words (rpc.command c) =
      some ("/trn_bin/transit".toList :: "-s".toList :: rpc.ip :: c.subcmd.toList :: "-j".toList :: ws) := by
  rw [Shell.words, lex_command hrpc, hws]
  rfl

end TrnRpc

/-! ## Configurations in quotes -/

/-- The configuration of a method is put into quotes, and has none itself. -/
structure TrnRpcCall.Quoted (benchmark : Bool) (c : TrnRpcCall) : Prop where
  not_unload : ∀ itfTenant itfZgc, c ≠ .unloadTransitXdp itfTenant itfZgc
  no_quote : '\'' ∉ chars (c.jsonconf benchmark)

/-- **A configuration in quotes is one argument.** -/
theorem lex_quotedConf {benchmark : Bool} {c : TrnRpcCall} (hc : c.Quoted benchmark) :
    Shell.lex .bare none (c.confText benchmark) = some [dumps (c.jsonconf benchmark)] := by
  have htext := notMem_dumps hc.no_quote
  cases c with
  | unloadTransitXdp itfTenant itfZgc => exact absurd rfl (hc.not_unload itfTenant itfZgc)
  | loadTransitXdp => exact Shell.lex_quoted htext [' ']
  | _ => exact Shell.lex_quoted htext []

section Run

variable {ι : Type} [DecidableEq ι] (fs : FileSystem) (L : Loader) (net : Net ι Node) {rpc : TrnRpc} {c : TrnRpcCall}

/-- A configuration as an argument. -/
def confArg (j : Json ℤ) : CStr := argOf (dumps j) (ascii_dumps j)

/-- The command of a method runs its subcommand with the configuration behind `-j`. -/
theorem runCmd_quoted (hrpc : rpc.Addressed) (hc : c.Quoted rpc.benchmark) :
    runCmd fs (cmds L) (rpc.command c) net = callSubcmd fs (cmds L) (bytesOf rpc.ip) (ascii "udp") c.subcmdArg
      [c.subcmdArg, dashJ, confArg (c.jsonconf rpc.benchmark)] net := by
  have hwords := TrnRpc.words_command hrpc (lex_quotedConf hc)
  have hargs : ∀ w ∈ ["-j".toList, dumps (c.jsonconf rpc.benchmark)], ∀ d ∈ w, Ascii d :=
    List.forall_mem_cons.2 ⟨by decide, List.forall_mem_singleton.2 (ascii_dumps _)⟩
  exact runCmd_words fs (cmds L) net hwords (fun d hd => ascii_of_plain (hrpc.plain d hd))
    (fun d hd => ascii_of_plain (c.subcmd_spec.1 d hd)) hargs c.noDash_subcmdArg

variable {L net}

/-- **The subcommand gets the configuration** that the method made, on the node that answers. -/
theorem runCmd_reaches (hrpc : rpc.Addressed) (hc : ∀ itfTenant itfZgc, c ≠ .unloadTransitXdp itfTenant itfZgc)
    (hj : Plain cJsonNestingLimit (c.jsonconf rpc.benchmark)) {cmd : Bytes × ConfAct Node}
    (hcmd : (cmds L).find? (fun x => x.1 = ascii c.subcmd) = some cmd) {i : ι}
    (hi : net.clntCreate (bytesOf rpc.ip) (ascii "udp") = some i) {r : Bool × Node}
    (hr : cmd.2 ((c.jsonconf rpc.benchmark).map readDouble) (net.nodes i) = some r) :
    runCmd fs (cmds L) (rpc.command c) net = some (if r.1 then 0 else 1, net.update i r.2) := by
  have htext : (confArg (c.jsonconf rpc.benchmark)).bytes = bytesOf (dumps (c.jsonconf rpc.benchmark)) := rfl
  rw [runCmd_quoted fs L net hrpc ⟨hc, hj.no_quote⟩,
    callSubcmd_acts hcmd hi ((confSubcmd_dumps fs cmd.2 (net.nodes i) c.subcmdArg hj htext).trans hr)]

end Run

end ArionDp
