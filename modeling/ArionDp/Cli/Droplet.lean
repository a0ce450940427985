import ArionDp.Cli.Common

/-!
# Droplet subcommand

`trn_cli_droplet.c`: the interface and the entrances of an update, as parsed from a configuration.

* `trnCliParseDroplet`;
* **`parseEntrance_text`**: an entrance given by the texts of its addresses.
-/

namespace ArionDp

open Wire Inet PyText

/-- `rpc_addr_t` -/
structure RpcAddr where
  ip : U32
  mac : Mac
  deriving DecidableEq

/-- `rpc_trn_droplet_t`, with the entrances that are filled -/
structure RpcDroplet where
  interface : List Char
  numEntrances : U32
  entrances : List RpcAddr
  deriving DecidableEq

/-- One round of the loop of `trn_cli_parse_droplet`. -/
def parseEntrance (entrance : CJson) : Except String RpcAddr := do
  let ip ← trnCliParseJsonStrIp entrance "ip"
  let mac ← trnCliParseJsonStrMac entrance "mac"
  pure ⟨ip, mac⟩

/-- `trn_cli_parse_droplet` -/
def trnCliParseDroplet (jsonobj : CJson) : Except String RpcDroplet := do
  let entrances := jsonobj.getObjectItem "entrances".toList
  let interface ← trnCliParseJsonString jsonobj "interface"
  let numEntrances ← trnCliParseJsonNumberU32 jsonobj "num_entrances"
  if numEntrances.toNat > tranMaxZgcEntrances then
    throw "Error: num_entrances over limit 128"
  match entrances with
  | none => throw "Error: Missing entrances"
  | some (.arr items) =>
    if BitVec.ofNat 32 items.length ≠ numEntrances then throw "Error: entrances array size not match"
    let entrances ← items.mapM parseEntrance
    pure ⟨interface, numEntrances, entrances⟩
  | some _ => throw "Error: entrances should be array type"

/-- An entrance in text is stored as its octets. -/
theorem parseEntrance_text {entrance : CJson} (o : Fin 4 → U8) (m : Mac) (g : Fin 6 → List Char)
    (hg : ∀ i, IsHexOctet (m i).toNat (g i))
    (hip : entrance.getObjectItem "ip".toList = some (.str (dotted o)))
    (hmac : entrance.getObjectItem "mac".toList = some (.str (pyJoin ':' (List.ofFn g)))) :
    parseEntrance entrance = .ok ⟨networkWord o, m⟩ := by
  rw [parseEntrance, trnCliParseJsonStrIp_dotted o hip, trnCliParseJsonStrMac_octets m g hg hmac]
  rfl

end ArionDp
