import ArionDp.Dmn.Endpoints
import ArionDp.Manager.Utils

/-!
# Endpoints of the manager

The `ep_rpc` entry that the port handlers build and `TrnRpc.update_ep`, which sends a batch of them
to a node.

* `EpRpc.trnEp`: the endpoint that a node reads in an entry;
* `EndpointSpec`: an endpoint in octets, its entry `EpRpc`, and the `TrnEp` it is meant to be;
* **`epRpc_spec`**: the entry built from the texts of an endpoint;
* **`trnRpcUpdateEp_eq`**: what a batch of entries does to the map of a node;
* **`trnEp_rpc`**: an entry is read as the endpoint it is meant to be.
-/

namespace ArionDp

open Wire Inet

/-- A scalar of a request that the manager passes to `int`. -/
inductive PyScalar
  | int (n : ℤ)
  | str (s : Text)
  deriving DecidableEq

/-- `int(v)`; `None` is no number -/
def PyScalar.toInt : Option PyScalar → Except PyError ℤ
  | none => .error .typeError
  | some (.int n) => .ok n
  | some (.str s) => ArionDp.int 10 s

/-- `ep_rpc` -/
structure EpRpc where
  vni : ℤ
  ip : ℤ
  hip : ℤ
  mac : ℤ
  hmac : ℤ
  deriving DecidableEq

/-- The `ep_rpc` entry of a port: its first address, and the host it is on. -/
def epRpc (vni : Option PyScalar) (ip ipNode macPort macNode : Text) : Except PyError EpRpc := do
  let vni ← PyScalar.toInt vni
  let ip ← ipToInt ip
  let hip ← ipToInt ipNode
  let mac ← macToInt macPort
  let hmac ← macToInt macNode
  pure ⟨vni, ip, hip, mac, hmac⟩

/-- An entry in JSON. -/
def EpRpc.toJson (e : EpRpc) : Json ℤ :=
  .obj [("vni".toList, .num e.vni), ("ip".toList, .num e.ip), ("hip".toList, .num e.hip),
    ("mac".toList, .num e.mac), ("hmac".toList, .num e.hmac)]

/-- `eps_conf` -/
def epsConf (chunk : List EpRpc) : Json ℤ :=
  .obj [("size".toList, .num chunk.length), ("eps".toList, .arr (chunk.map EpRpc.toJson))]

/-- How `cJSON` reads the numbers that `json.dumps` writes: exactly, as long as doubles do. -/
structure JsonNumber where
  read : ℤ → ℚ
  exact : ∀ n : ℕ, n < 2 ^ 53 → read n = n

/-- Numbers read without rounding. -/
def JsonNumber.cast : JsonNumber := ⟨fun n => n, fun _ _ => rfl⟩

/-- `TrnRpc.update_ep`: the map of the node after the call -/
def trnRpcUpdateEp (num : JsonNumber) (chunk : List EpRpc) (m : Option EndpointsMap) :
    Option EndpointsMap :=
  (trnCliUpdateEpSubcmd ((epsConf chunk).map num.read) m).2

/-! ## What a node reads in an entry -/

section Parse

variable (num : JsonNumber)

/-- The key that `trn_cli` makes of the numbers of an entry. -/
def endpointKey (vni ip : ℤ) : EndpointKey :=
  ⟨Json.cUInt 32 (num.read vni), swapLoop 4 0 (Json.cUInt 32 (num.read ip))⟩

/-- The MAC address that `trn_cli` makes of a number. -/
def macOctets (mac : ℤ) : Mac :=
  macLoop 6 (Json.cUInt 64 (num.read mac) &&& 0xFFFFFFFFFFFF#64) fun _ => 0

/-- The endpoint that `trn_cli` makes of an entry. -/
def EpRpc.trnEp (e : EpRpc) : TrnEp :=
  ⟨endpointKey num e.vni e.ip, ⟨swapLoop 4 0 (Json.cUInt 32 (num.read e.hip)), macOctets num e.mac,
    macOctets num e.hmac⟩⟩

theorem cliNumber_read {j : Json ℤ} {key : String} {n : ℤ}
    (h : j.getObjectItem key.toList = some (.num n)) :
    cliNumber (j.map num.read) key = .ok (num.read n) := by
  rw [cliNumber, Json.getObjectItem_map, h]
  rfl

/-- A field that holds a small number. -/
theorem cliNumber_map {j : Json ℤ} {key : String} {n : ℕ} (hn : n < 2 ^ 53)
    (h : j.getObjectItem key.toList = some (.num (n : ℤ))) :
    cliNumber (j.map num.read) key = .ok (n : ℚ) :=
  (cliNumber_read num h).trans (congrArg Except.ok (num.exact n hn))

/-- Every entry has its five numbers. -/
theorem parseEpItem_toJson (e : EpRpc) : parseEpItem (e.toJson.map num.read) = .ok (e.trnEp num) := by
  rw [parseEpItem, trnCliParseJsonNumberU32, trnCliParseJsonNumberU32n, trnCliParseJsonNumberU32n,
    trnCliParseJsonNumberMac, trnCliParseJsonNumberMac, cliNumber_read num (n := e.vni) rfl,
    cliNumber_read num (n := e.ip) rfl, cliNumber_read num (n := e.hip) rfl,
    cliNumber_read num (n := e.mac) rfl, cliNumber_read num (n := e.hmac) rfl]
  rfl

theorem mapM_parseEpItem (l : List EpRpc) :
    (l.map fun e => e.toJson.map num.read).mapM parseEpItem = .ok (l.map (EpRpc.trnEp num)) := by
  induction l with
  | nil => rfl
  | cons e l ih =>
    rw [List.map_cons, List.mapM_cons, parseEpItem_toJson, ih]
    rfl

/-- **A batch that is not too long is accepted.** -/
theorem trnCliParseEp_epsConf (chunk : List EpRpc) (hl : chunk.length ≤ tranMaxEpBatchSize) :
    trnCliParseEp ((epsConf chunk).map num.read) = .ok (chunk.map (EpRpc.trnEp num)) := by
  have h360 : chunk.length ≤ 360 := hl
  have hsize : trnCliParseJsonNumberU32 ((epsConf chunk).map num.read) "size" =
      .ok (BitVec.ofNat 32 chunk.length) := by
    rw [trnCliParseJsonNumberU32, cliNumber_map num (n := chunk.length) (by omega) rfl]
    exact congrArg Except.ok (Json.cUInt_natCast 32 chunk.length)
  have heps : Json.getObjectItem "eps".toList ((epsConf chunk).map num.read) =
      some (.arr (chunk.map fun e => e.toJson.map num.read)) := by
    rw [Json.getObjectItem_map]
    change some (Json.arr (Json.mapItems num.read _)) = _
    rw [Json.mapItems_eq, List.map_map]
    rfl
  have hn : (BitVec.ofNat 32 chunk.length).toNat = chunk.length := by
    rw [BitVec.toNat_ofNat]
    omega
  rw [trnCliParseEp, hsize, heps]
  change (if (BitVec.ofNat 32 chunk.length).toNat > 360 then _ else _) = _
  rw [if_neg (by omega)]
  rw [if_neg (by rw [List.length_map]; exact not_not.mpr rfl)]
  exact mapM_parseEpItem num chunk

/-- **A batch of entries updates the map of a loaded node.** -/
theorem trnRpcUpdateEp_eq (chunk : List EpRpc) (hl : chunk.length ≤ tranMaxEpBatchSize)
    (m : Option EndpointsMap) : trnRpcUpdateEp num chunk m =
      m.map fun m => updateEndpoints m (chunk.map (EpRpc.trnEp num)) := by
  rw [trnRpcUpdateEp, trnCliUpdateEpSubcmd, trnCliParseEp_epsConf num chunk hl]
  change (updateEp1Svc m (rpcBatch (chunk.map (EpRpc.trnEp num)))).2 = _
  rw [rpcBatch_eq]
  cases m <;> rfl

end Parse

/-! ## What an entry is meant to be -/

/-- **An endpoint in octets.** -/
structure EndpointSpec where
  vni : ℕ
  ip : Fin 4 → U8
  hip : Fin 4 → U8
  mac : Mac
  hmac : Mac
  vni_lt : vni < 2 ^ 24

namespace EndpointSpec

/-- The entry of an endpoint. -/
def rpc (s : EndpointSpec) : EpRpc :=
  ⟨s.vni, octetsNat (List.ofFn s.ip), octetsNat (List.ofFn s.hip), octetsNat (List.ofFn s.mac),
    octetsNat (List.ofFn s.hmac)⟩

/-- The endpoint in memory. -/
def trnEp (s : EndpointSpec) : TrnEp :=
  ⟨⟨BitVec.ofNat 32 s.vni, networkWord s.ip⟩, ⟨networkWord s.hip, s.mac, s.hmac⟩⟩

theorem toNat_vni (s : EndpointSpec) : s.trnEp.key.vni.toNat = s.vni := by
  have h := s.vni_lt
  rw [trnEp, BitVec.toNat_ofNat]
  omega

/-- **Keys are equal for equal networks and addresses.** -/
theorem key_eq_iff (s t : EndpointSpec) : s.trnEp.key = t.trnEp.key ↔ s.vni = t.vni ∧ s.ip = t.ip := by
  constructor
  · intro h
    refine ⟨?_, funext fun k => ?_⟩
    · rw [← s.toNat_vni, h, t.toNat_vni]
    · have hw : networkWord s.ip = networkWord t.ip := congrArg EndpointKey.ip h
      rw [← byte_networkWord s.ip, hw, byte_networkWord]
  · rintro ⟨hv, hi⟩
    rw [trnEp, trnEp, hv, hi]

end EndpointSpec

/-- **The entry built from texts.** -/
theorem epRpc_spec (s : EndpointSpec) {vni : Option PyScalar} {mac hmac : Text}
    (hv : PyScalar.toInt vni = .ok (s.vni : ℤ)) (hm : MacText s.mac mac) (hh : MacText s.hmac hmac) :
    epRpc vni (dotted s.ip) (dotted s.hip) mac hmac = .ok s.rpc := by
  rw [epRpc, hv, ipToInt_dotted, ipToInt_dotted, macToInt_of_macText hm, macToInt_of_macText hh]
  rfl

/-- **An entry is read as the endpoint it is meant to be.** -/
theorem trnEp_rpc (num : JsonNumber) (s : EndpointSpec) : s.rpc.trnEp num = s.trnEp := by
  have hv := s.vni_lt
  have h4 : ∀ o : Fin 4 → U8, octetsNat (List.ofFn o) < 2 ^ 53 := fun o =>
    (octetsNat_lt o).trans (by norm_num)
  have h6 : ∀ o : Mac, octetsNat (List.ofFn o) < 2 ^ 53 := fun o =>
    (octetsNat_lt o).trans (by norm_num)
  have hvni : trnCliParseJsonNumberU32 (s.rpc.toJson.map num.read) "vni" =
      .ok (BitVec.ofNat 32 s.vni) := by
    rw [trnCliParseJsonNumberU32, cliNumber_map num (n := s.vni) (by omega) rfl]
    exact congrArg Except.ok (Json.cUInt_natCast 32 s.vni)
  refine Except.ok.inj ((parseEpItem_toJson num s.rpc).symm.trans ?_)
  rw [parseEpItem, hvni,
    trnCliParseJsonNumberU32n_octets s.ip (cliNumber_map num (h4 _) rfl),
    trnCliParseJsonNumberU32n_octets s.hip (cliNumber_map num (h4 _) rfl),
    trnCliParseJsonNumberMac_octets s.mac _ (cliNumber_map num (h6 _) rfl),
    trnCliParseJsonNumberMac_octets s.hmac _ (cliNumber_map num (h6 _) rfl)]
  rfl

/-- A batch of endpoints that fits. -/
theorem trnRpcUpdateEp_specs (num : JsonNumber) (l : List EndpointSpec)
    (hl : l.length ≤ tranMaxEpBatchSize) (m : EndpointsMap) :
    trnRpcUpdateEp num (l.map EndpointSpec.rpc) (some m) =
      some (updateEndpoints m (l.map EndpointSpec.trnEp)) := by
  rw [trnRpcUpdateEp_eq num _ (by rwa [List.length_map]), List.map_map]
  exact congrArg (fun b => some (updateEndpoints m b)) (List.map_congr_left fun s _ => trnEp_rpc num s)

end ArionDp
