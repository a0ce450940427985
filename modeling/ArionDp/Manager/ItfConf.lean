import ArionDp.Dmn.Droplet
import ArionDp.Manager.World

/-!
# Configurations of interfaces

`TrnRpc.update_droplet`, from the configuration that `droplet_update_itf_config` builds to the entry
of the interface in `if_config_map`.

* `Denotes`: the addresses that an entrance is meant to have;
* **`trnCliParseDroplet_itfConf`**: a configuration that is not too long is accepted;
* `Shows`, **`trnRpcUpdateDroplet_shows`**: the record of a known interface has its addresses, if the array has its
  index; **`trnRpcUpdateDroplet_refused`** otherwise.
-/

namespace ArionDp

open Wire Inet PyText

/-- An entrance in JSON. -/
def GwAddr.toJson (g : GwAddr) : Json ℤ := .obj [("ip".toList, .str g.ip), ("mac".toList, .str g.mac)]

/-- `itf_conf` in JSON. -/
def ItfConf.toJson (c : ItfConf) : Json ℤ :=
  .obj [("interface".toList, match c.interface with
      | none => .null
      | some itf => .str itf),
    ("num_entrances".toList, .num c.numEntrances),
    ("entrances".toList, .arr (c.entrances.map GwAddr.toJson))]

/-- `TrnRpc.update_droplet`: whether the node accepts the configuration, and its map after the call -/
def trnRpcUpdateDroplet (num : JsonNumber) (c : ItfConf) (d : Transitd)
    (stack : Fin tranMaxZgcEntrances → ZgcEntrance) (m : Option IfConfigMap) :
    Bool × Option IfConfigMap :=
  trnCliUpdateDropletSubcmd (c.toJson.map num.read) d stack m

/-! ## Addresses -/

/-- An entrance has the addresses that the texts denote. -/
def Denotes (e : RpcAddr) (g : GwAddr) : Prop :=
  MacText e.mac g.mac ∧ ∃ o : Fin 4 → U8, g.ip = dotted o ∧ e.ip = networkWord o

theorem parseEntrance_gw (num : JsonNumber) {e : RpcAddr} {g : GwAddr} (h : Denotes e g) :
    parseEntrance (g.toJson.map num.read) = .ok e := by
  obtain ⟨ip, mac⟩ := e
  obtain ⟨⟨t, ht, hg⟩, o, ho, hip⟩ := h
  dsimp only at hip
  rw [hip]
  refine parseEntrance_text o mac t hg ?_ ?_
  · rw [Json.getObjectItem_map, ← ho]
    rfl
  · rw [Json.getObjectItem_map, ← ht]
    rfl

theorem mapM_parseEntrance (num : JsonNumber) {es : List RpcAddr} {gws : List GwAddr}
    (h : List.Forall₂ Denotes es gws) :
    (gws.map fun g => g.toJson.map num.read).mapM parseEntrance = .ok es := by
  induction h with
  | nil => rfl
  | cons hd _ ih =>
    rw [List.map_cons, List.mapM_cons, parseEntrance_gw num hd, ih]
    rfl

/-- **A configuration that is not too long is accepted**, if it names an interface. -/
theorem trnCliParseDroplet_itfConf (num : JsonNumber) (itf : Text) {es : List RpcAddr}
    {gws : List GwAddr} (h : List.Forall₂ Denotes es gws) (hl : gws.length ≤ tranMaxZgcEntrances) :
    trnCliParseDroplet ((ItfConf.toJson ⟨some itf, gws.length, gws⟩).map num.read) =
      .ok ⟨itf, BitVec.ofNat 32 gws.length, es⟩ := by
  have h128 : gws.length ≤ 128 := hl
  have hitf : trnCliParseJsonString ((ItfConf.toJson ⟨some itf, gws.length, gws⟩).map num.read)
      "interface" = .ok itf := by
    rw [trnCliParseJsonString, Json.getObjectItem_map]
    rfl
  have hnum : trnCliParseJsonNumberU32 ((ItfConf.toJson ⟨some itf, gws.length, gws⟩).map num.read)
      "num_entrances" = .ok (BitVec.ofNat 32 gws.length) := by
    rw [trnCliParseJsonNumberU32, cliNumber_map num (n := gws.length) (by omega) rfl]
    exact congrArg Except.ok (Json.cUInt_natCast 32 gws.length)
  have hent : Json.getObjectItem "entrances".toList
      ((ItfConf.toJson ⟨some itf, gws.length, gws⟩).map num.read) =
        some (.arr (gws.map fun g => g.toJson.map num.read)) := by
    rw [Json.getObjectItem_map]
    have hfield : Json.getObjectItem "entrances".toList (ItfConf.toJson ⟨some itf, gws.length, gws⟩) =
        some (.arr (gws.map GwAddr.toJson)) := rfl
    rw [hfield, Option.map_some, Json.map, Json.mapItems_eq, List.map_map]
    rfl
  have hlen : ¬ (BitVec.ofNat 32 gws.length).toNat > tranMaxZgcEntrances := by
    rw [BitVec.toNat_ofNat]
    omega
  have hsame : ¬ BitVec.ofNat 32 (gws.map fun g => g.toJson.map num.read).length ≠
      BitVec.ofNat 32 gws.length := by
    rw [List.length_map]
    exact fun hne => hne rfl
  rw [trnCliParseDroplet, hitf, hnum, hent]
  simp only [bind, Except.bind, pure, Except.pure, if_neg hlen, if_neg hsame, mapM_parseEntrance num h]

/-! ## Entries -/

/-- The entry of an interface has the addresses that the texts denote, in their order. -/
def Shows (itf : TunnelIface) (gws : List GwAddr) : Prop :=
  itf.numEntrances.toNat = gws.length ∧ ∀ (i : Fin tranMaxZgcEntrances) (h : i.1 < gws.length),
    Denotes ⟨(itf.entrances i).ip, (itf.entrances i).mac⟩ gws[i.1]

/-- The record of a droplet has the addresses of its configuration. -/
theorem shows_entry {d : Transitd} {stack : Fin tranMaxZgcEntrances → ZgcEntrance} {itf : Text} {es : List RpcAddr}
    {gws : List GwAddr} (h : List.Forall₂ Denotes es gws) (hl : gws.length ≤ tranMaxZgcEntrances)
    {e : ℕ × TunnelIface} (he : d.entry stack ⟨itf, BitVec.ofNat 32 gws.length, es⟩ = some e) : Shows e.2 gws := by
  obtain ⟨eth, -, -, rfl⟩ := entry_eq_some.1 he
  have h128 : gws.length ≤ 128 := hl
  refine ⟨?_, fun i hi => ?_⟩
  · change (BitVec.ofNat 32 gws.length).toNat = _
    rw [BitVec.toNat_ofNat]
    omega
  · have hi' : i.1 < es.length := h.length_eq ▸ hi
    have hnum : i.1 < (BitVec.ofNat 32 gws.length).toNat := by
      rw [BitVec.toNat_ofNat]
      omega
    rw [dropletItf_entrances stack ⟨itf, BitVec.ofNat 32 gws.length, es⟩ eth hnum
      (List.getElem?_eq_getElem hi')]
    exact (List.forall₂_iff_get.1 h).2 i.1 hi' hi

/-- What the node answers to a configuration that is not too long: its daemon decides. -/
theorem trnRpcUpdateDroplet_eq (num : JsonNumber) (itf : Text) {es : List RpcAddr} {gws : List GwAddr}
    (h : List.Forall₂ Denotes es gws) (hl : gws.length ≤ tranMaxZgcEntrances) (d : Transitd)
    (stack : Fin tranMaxZgcEntrances → ZgcEntrance) (m : Option IfConfigMap) :
    trnRpcUpdateDroplet num ⟨some itf, gws.length, gws⟩ d stack m =
      ((updateDroplet1Svc d stack m ⟨itf, BitVec.ofNat 32 gws.length, es⟩).1 == 0,
        (updateDroplet1Svc d stack m ⟨itf, BitVec.ofNat 32 gws.length, es⟩).2) := by
  rw [trnRpcUpdateDroplet, trnCliUpdateDropletSubcmd, trnCliParseDroplet_itfConf num itf h hl]

/-- **The record of a known interface has the addresses of the configuration**, if the array has its index. -/
theorem trnRpcUpdateDroplet_shows (num : JsonNumber) {itf : Text} {es : List RpcAddr}
    {gws : List GwAddr} (h : List.Forall₂ Denotes es gws) (hl : gws.length ≤ tranMaxZgcEntrances)
    {d : Transitd} {eth : TrnIface} (hd : trnGetItfContext d itf = some eth)
    (hindex : eth.ifaceIndex.toNat < tranMaxItf) (stack : Fin tranMaxZgcEntrances → ZgcEntrance)
    (m : IfConfigMap) :
    ∃ (conf : TunnelIface) (m' : IfConfigMap), Shows conf gws ∧
      m'.lookup = Function.update m.lookup eth.ifaceIndex.toNat (some conf) ∧
      trnRpcUpdateDroplet num ⟨some itf, gws.length, gws⟩ d stack (some m) = (true, some m') := by
  have hentry : d.entry stack ⟨itf, BitVec.ofNat 32 gws.length, es⟩ =
      some (eth.ifaceIndex.toNat, dropletItf stack ⟨itf, BitVec.ofNat 32 gws.length, es⟩ eth) :=
    entry_eq_some.2 ⟨eth, hd, hindex, rfl⟩
  obtain ⟨m', hrun, hlook⟩ := (updateDroplet_entry d stack _ m).2 _ hentry
  refine ⟨_, m', shows_entry h hl hentry, hlook, ?_⟩
  rw [trnRpcUpdateDroplet_eq num itf h hl, hrun]
  rfl

/-- **Without an index of the array nothing is stored**, and the request fails. -/
theorem trnRpcUpdateDroplet_refused (num : JsonNumber) {itf : Text} {es : List RpcAddr}
    {gws : List GwAddr} (h : List.Forall₂ Denotes es gws) (hl : gws.length ≤ tranMaxZgcEntrances)
    {d : Transitd} {eth : TrnIface} (hd : trnGetItfContext d itf = some eth)
    (hindex : tranMaxItf ≤ eth.ifaceIndex.toNat) (stack : Fin tranMaxZgcEntrances → ZgcEntrance)
    (m : IfConfigMap) :
    trnRpcUpdateDroplet num ⟨some itf, gws.length, gws⟩ d stack (some m) = (false, some m) := by
  have hentry : d.entry stack ⟨itf, BitVec.ofNat 32 gws.length, es⟩ = none := by
    rw [Transitd.entry, hd, Option.bind_some, if_neg (not_lt.2 hindex)]
  rw [trnRpcUpdateDroplet_eq num itf h hl, (updateDroplet_entry d stack _ m).1 hentry]
  rfl

end ArionDp
