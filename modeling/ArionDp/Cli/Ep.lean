import ArionDp.Cli.Common
import ArionDp.Lib.Words

/-!
# Endpoint subcommands

`trn_cli_ep.c`: the endpoints of an update and the key of a lookup, as parsed from a configuration,
and the union that turns an endpoint into the three words of its message.

* `trnCliParseEpKey`, `trnCliParseEp`;
* **`ofRpcEp_rpcEp`**: the daemon reads the endpoint that the client wrote.
-/

namespace ArionDp

open Wire

/-- `TRAN_MAX_EP_BATCH_SIZE` -/
abbrev tranMaxEpBatchSize : ℕ := 360

/-- `trn_ep_t`, as the program sees it -/
structure TrnEp where
  key : EndpointKey
  val : Endpoint
  deriving DecidableEq

namespace TrnEp

/-- The memory of an endpoint. -/
def image (e : TrnEp) : Bytes :=
  le32 e.key.vni ++ (le32 e.key.ip ++ (le32 e.val.hip ++
    (List.ofFn e.val.mac ++ List.ofFn e.val.hmac)))

/-- The endpoint in a piece of memory. -/
def ofImage (p : Bytes) : TrnEp :=
  ⟨⟨ld32 p 0, ld32 p 4⟩, ⟨ld32 p 8, fun k => rd p (12 + k), fun k => rd p (18 + k)⟩⟩

/-- `trn_ep_t`, as the message sees it: `buf64` of `rpc_trn_endpoint_t` -/
def rpcEp (e : TrnEp) : List U64 := imageWords 3 e.image

/-- The endpoint in the words of a message. -/
def ofRpcEp (buf64 : List U64) : TrnEp := ofImage (buf64.flatMap le64)

@[simp] theorem length_image (e : TrnEp) : e.image.length = 24 := by
  simp [image, le32]

theorem ld32_le32 {p : Bytes} {o : ℕ} {v : U32} (h : ∀ k < 4, rd p (o + k) = byte v k) :
    ld32 p o = v :=
  eq_of_byte (show 32 ≤ 8 * 4 by omega) fun k hk => (byte_ld32 p o hk).trans (h k hk)

theorem ofImage_image (e : TrnEp) : ofImage e.image = e := by
  obtain ⟨⟨vni, ip⟩, ⟨hip, mac, hmac⟩⟩ := e
  have h0 : ld32 (image ⟨⟨vni, ip⟩, ⟨hip, mac, hmac⟩⟩) 0 = vni :=
    ld32_le32 fun k hk => by interval_cases k <;> rfl
  have h4 : ld32 (image ⟨⟨vni, ip⟩, ⟨hip, mac, hmac⟩⟩) 4 = ip :=
    ld32_le32 fun k hk => by interval_cases k <;> rfl
  have h8 : ld32 (image ⟨⟨vni, ip⟩, ⟨hip, mac, hmac⟩⟩) 8 = hip :=
    ld32_le32 fun k hk => by interval_cases k <;> rfl
  have hm : (fun k : Fin 6 => rd (image ⟨⟨vni, ip⟩, ⟨hip, mac, hmac⟩⟩) (12 + k)) = mac := by
    funext ⟨k, hk⟩
    interval_cases k <;> rfl
  have hh : (fun k : Fin 6 => rd (image ⟨⟨vni, ip⟩, ⟨hip, mac, hmac⟩⟩) (18 + k)) = hmac := by
    funext ⟨k, hk⟩
    interval_cases k <;> rfl
  rw [ofImage, h0, h4, h8, hm, hh]

theorem ofRpcEp_rpcEp (e : TrnEp) : ofRpcEp e.rpcEp = e := by
  rw [ofRpcEp, rpcEp, flatMap_le64 3 _ e.length_image, ofImage_image]

end TrnEp

/-- `trn_cli_parse_ep_key` -/
def trnCliParseEpKey (jsonobj : CJson) : Except String EndpointKey := do
  let vni ← trnCliParseJsonNumberU32 jsonobj "vni"
  let ip ← trnCliParseJsonStrIp jsonobj "ip"
  pure ⟨vni, ip⟩

/-- One round of the loop of `trn_cli_parse_ep`. -/
def parseEpItem (ep : CJson) : Except String TrnEp := do
  let vni ← trnCliParseJsonNumberU32 ep "vni"
  let ip ← trnCliParseJsonNumberU32n ep "ip"
  let hip ← trnCliParseJsonNumberU32n ep "hip"
  let mac ← trnCliParseJsonNumberMac ep "mac" fun _ => 0
  let hmac ← trnCliParseJsonNumberMac ep "hmac" fun _ => 0
  pure ⟨⟨vni, ip⟩, ⟨hip, mac, hmac⟩⟩

/-- `trn_cli_parse_ep` -/
def trnCliParseEp (jsonobj : CJson) : Except String (List TrnEp) := do
  let eps := jsonobj.getObjectItem "eps".toList
  let len ← trnCliParseJsonNumberU32 jsonobj "size"
  if len.toNat > tranMaxEpBatchSize then
    throw "Number of elements in batch over limit 360"
  match eps with
  | none => throw "Error: Missing eps"
  | some (.arr items) =>
    if BitVec.ofNat 32 items.length ≠ len then throw "Error: eps array size not match"
    items.mapM parseEpItem
  | some _ => throw "Error: eps should be array type"

end ArionDp
