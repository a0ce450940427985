import ArionDp.Cli.Common

/-!
# Transit XDP subcommand

`trn_cli_xdp.c`: the interfaces that the program is loaded on, and a side program, as parsed from a configuration.

* `trnCliParseXdp`, `trnCliParseEbpfProg`;
* **`swapLoop16_two`**: the port is stored in network byte order.
-/

namespace ArionDp

open Wire

/-- `rpc_trn_xdp_intf_t`, with `interfaces[TRAN_ITF_MAP_TENANT]` and `interfaces[TRAN_ITF_MAP_ZGC]` -/
structure RpcXdpIntf where
  itfTenant : List Char
  itfZgc : List Char
  iboPort : U16
  debugMode : U32
  deriving DecidableEq

/-- The optional field of `trn_cli_parse_xdp` -/
def parseDebugMode (jsonobj : CJson) : Except String U32 :=
  match jsonobj.getObjectItem "debug_mode".toList with
  | none => pure 1
  | some _ => trnCliParseJsonNumberU32 jsonobj "debug_mode"

/-- `trn_cli_parse_xdp` -/
def trnCliParseXdp (jsonobj : CJson) : Except String RpcXdpIntf := do
  let itfTenant ← trnCliParseJsonString jsonobj "itf_tenant"
  let itfZgc ← trnCliParseJsonString jsonobj "itf_zgc"
  let iboPort ← trnCliParseJsonNumberU16n jsonobj "ibo_port"
  let debugMode ← parseDebugMode jsonobj
  pure ⟨itfTenant, itfZgc, iboPort, debugMode⟩

/-- `rpc_trn_ebpf_prog_t` -/
structure RpcEbpfProg where
  progIdx : U32
  debugMode : U32
  deriving DecidableEq

/-- The side programs by their names, with `TRAN_TX_PROG`, `TRAN_PASS_PROG`, `TRAN_REDIRECT_PROG` and
`TRAN_DROP_PROG` -/
def ebpfProgIdx (name : List Char) : Except String U32 :=
  if name = "xdp_tx".toList then .ok 1
  else if name = "xdp_pass".toList then .ok 2
  else if name = "xdp_redirect".toList then .ok 3
  else if name = "xdp_drop".toList then .ok 4
  else .error ("Unsupported eBPF program " ++ String.ofList name ++ ".")

/-- `trn_cli_parse_ebpf_prog` -/
def trnCliParseEbpfProg (jsonobj : CJson) : Except String RpcEbpfProg :=
  match jsonobj.getObjectItem "name".toList with
  | none => .error "Missing name for ebpf program to load."
  | some (.str name) => do
    let progIdx ← ebpfProgIdx name
    let debugMode ← trnCliParseJsonNumberU32 jsonobj "debug_mode"
    pure ⟨progIdx, debugMode⟩
  | some _ => .error "Invalid name type, should be string"

/-! ## Ports -/

/-- **The swap reverses the two bytes.** -/
theorem swapLoop16_two (v : U16) : swapLoop16 2 0 v = bpfHtons v := by
  have low : ∀ j < 8, (0xFF#16).getLsbD j = true := by decide
  have high : ∀ j : Fin 16, 8 ≤ j.1 → (0xFF#16)[j.1] = false := by decide
  have hpush (buf tmp : U16) : byte ((buf <<< 8) ||| (tmp &&& 0xFF#16)) 0 = byte tmp 0 ∧
      byte ((buf <<< 8) ||| (tmp &&& 0xFF#16)) 1 = byte buf 0 := by
    constructor
    · ext i hi
      simp [byte, hi, low i hi]
    · ext i hi
      have hzero : (255#16)[8 + i] = false := high ⟨8 + i, by omega⟩ (Nat.le_add_right 8 i)
      simp [byte, hzero, show ¬ 8 + i < 8 by omega, show 8 + i < 16 by omega, show i < 16 by omega]
  refine eq_of_byte16 ?_ ?_
  · rw [swapLoop16, swapLoop16, swapLoop16, (hpush _ _).1, byte_ushiftRight, bpfHtons, byte_append_zero]
  · rw [swapLoop16, swapLoop16, swapLoop16, (hpush _ _).2, (hpush _ _).1, bpfHtons, byte_append_succ]
    exact (BitVec.extractLsb'_eq_self).symm

end ArionDp
