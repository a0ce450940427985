import ArionDp.Cli.Droplet
import ArionDp.Dmn.Endpoints
import ArionDp.Lib.BoundedMap

/-!
# Droplets in the daemon

`update_droplet_1_svc` and what it calls: the interfaces that the daemon has loaded the program on, and
the record of one of them in `if_config_map`. The map is an array of `TRAN_MAX_ITF` records: there is one under every
index of the array, which is zero before it is written, and an update under another index is refused.

* `Transitd`: what the daemon knows of its interfaces;
* `IfConfigMap`, `updateDroplet1Svc`: the array, and the request;
* `Transitd.entry`, **`updateDroplet_entry`**: the record that a message leaves, and the messages that leave none.
-/

namespace ArionDp

open Wire

/-- `TRAN_ITF_MAP_MAX` -/
abbrev tranItfMapMax : ℕ := 2

instance : NeZero tranItfMapMax := ⟨by decide⟩

/-- `trn_iface_t` -/
structure TrnIface where
  ifaceIndex : U32
  iboPort : U16
  protocol : U8
  role : U8

/-- A daemon: `if_nametoindex`, which is 0 for unknown names, and `eth` of `md->objs`, if there is
`md`. -/
structure Transitd where
  ifNametoindex : List Char → U32
  md : Option (Fin tranItfMapMax → TrnIface)

/-- `TRAN_MAX_ITF` -/
abbrev tranMaxItf : ℕ := 128

/-- `if_config_map` -/
abbrev IfConfigMap := ArrayMap TunnelIface tranMaxItf

/-- A record that nobody has written. -/
def TunnelIface.zero : TunnelIface := ⟨0, 0, 0, 0, 0, fun _ => ⟨0, 0, fun _ => 0⟩⟩

/-- The array of a new map. -/
def IfConfigMap.new : IfConfigMap := ⟨fun _ => .zero⟩

/-- What `bpf_map_lookup_elem` of the program finds. -/
def IfConfigMap.content (m : IfConfigMap) : U32 → Option TunnelIface := fun i => m.lookup i.toNat

/-- `trn_get_itf_context` -/
def trnGetItfContext (d : Transitd) (interface : List Char) : Option TrnIface :=
  match d.md with
  | none => none
  | some objs =>
    let ifaceIndex := d.ifNametoindex interface
    if ifaceIndex = 0 then none
    else ((List.finRange tranItfMapMax).map objs).find? fun eth => eth.ifaceIndex = ifaceIndex

/-- `trn_update_itf_config`; without a loaded program there is no map -/
def trnUpdateItfConfig (m : Option IfConfigMap) (itf : TunnelIface) : ℤ × Option IfConfigMap :=
  match m with
  | none => (1, none)
  | some m => match m.update itf.ifaceIndex.toNat itf with
    | none => (1, some m)
    | some m' => (0, some m')

/-- The record that `update_droplet_1_svc` fills; `stack` is what was in its place before. -/
def dropletItf (stack : Fin tranMaxZgcEntrances → ZgcEntrance) (droplet : RpcDroplet)
    (eth : TrnIface) : TunnelIface where
  ifaceIndex := eth.ifaceIndex
  iboPort := eth.iboPort
  protocol := eth.protocol
  role := eth.role
  numEntrances := droplet.numEntrances
  entrances i :=
    if i.1 < droplet.numEntrances.toNat then
      match droplet.entrances[i.1]? with
      | some e => ⟨e.ip, 0, e.mac⟩
      | none => stack i
    else stack i

/-- `update_droplet_1_svc` -/
def updateDroplet1Svc (d : Transitd) (stack : Fin tranMaxZgcEntrances → ZgcEntrance)
    (m : Option IfConfigMap) (droplet : RpcDroplet) : ℤ × Option IfConfigMap :=
  match trnGetItfContext d droplet.interface with
  | none => (rpcTrnError, m)
  | some eth =>
    let r := trnUpdateItfConfig m (dropletItf stack droplet eth)
    if r.1 ≠ 0 then (rpcTrnError, r.2) else (0, r.2)

/-- `trn_cli_update_droplet_subcmd`: whether it succeeds, and the map of the node -/
def trnCliUpdateDropletSubcmd (conf : CJson) (d : Transitd)
    (stack : Fin tranMaxZgcEntrances → ZgcEntrance) (m : Option IfConfigMap) :
    Bool × Option IfConfigMap :=
  match trnCliParseDroplet conf with
  | .error _ => (false, m)
  | .ok droplet => ((updateDroplet1Svc d stack m droplet).1 == 0, (updateDroplet1Svc d stack m droplet).2)

/-- The record that a droplet leaves, with its index: if the interface is known, and the array has the index. -/
def Transitd.entry (d : Transitd) (stack : Fin tranMaxZgcEntrances → ZgcEntrance) (droplet : RpcDroplet) :
    Option (ℕ × TunnelIface) :=
  (trnGetItfContext d droplet.interface).bind fun eth =>
    if eth.ifaceIndex.toNat < tranMaxItf then some (eth.ifaceIndex.toNat, dropletItf stack droplet eth) else none

section Updates

variable {d : Transitd} {stack : Fin tranMaxZgcEntrances → ZgcEntrance} {droplet : RpcDroplet}

theorem entry_eq_some {e : ℕ × TunnelIface} : d.entry stack droplet = some e ↔
    ∃ eth, trnGetItfContext d droplet.interface = some eth ∧ eth.ifaceIndex.toNat < tranMaxItf ∧
      e = (eth.ifaceIndex.toNat, dropletItf stack droplet eth) := by
  rw [Transitd.entry, Option.bind_eq_some_iff]
  refine exists_congr fun eth => and_congr_right fun _ => ?_
  rw [Option.ite_none_right_eq_some, Option.some_inj]
  exact and_congr_right fun _ => eq_comm

variable (d stack droplet) in
/-- **What a droplet leaves**: its record, or nothing and an error. -/
theorem updateDroplet_entry (m : IfConfigMap) :
    (d.entry stack droplet = none → updateDroplet1Svc d stack (some m) droplet = (rpcTrnError, some m)) ∧
    ∀ e, d.entry stack droplet = some e → ∃ m' : IfConfigMap,
      updateDroplet1Svc d stack (some m) droplet = (0, some m') ∧
        m'.lookup = Function.update m.lookup e.1 (some e.2) := by
  rw [Transitd.entry, updateDroplet1Svc]
  cases heth : trnGetItfContext d droplet.interface with
  | none => exact ⟨fun _ => rfl, nofun⟩
  | some eth =>
    have hindex : (dropletItf stack droplet eth).ifaceIndex = eth.ifaceIndex := rfl
    simp only [Option.bind_some, trnUpdateItfConfig, hindex]
    cases hm : m.update eth.ifaceIndex.toNat (dropletItf stack droplet eth) with
    | none =>
      rw [if_neg (not_lt.2 (ArrayMap.update_eq_none.1 hm))]
      exact ⟨fun _ => rfl, nofun⟩
    | some m' =>
      have hlt : eth.ifaceIndex.toNat < tranMaxItf := by
        by_contra hge
        exact absurd (hm.symm.trans (ArrayMap.update_eq_none.2 (not_lt.1 hge))) (Option.some_ne_none m')
      rw [if_pos hlt]
      refine ⟨nofun, fun e he => ⟨m', rfl, ?_⟩⟩
      rw [← Option.some.inj he, ArrayMap.lookup_update hm]

end Updates

theorem dropletItf_entrances (stack : Fin tranMaxZgcEntrances → ZgcEntrance) (droplet : RpcDroplet)
    (eth : TrnIface) {i : Fin tranMaxZgcEntrances} (hi : i.1 < droplet.numEntrances.toNat) {e : RpcAddr}
    (he : droplet.entrances[i.1]? = some e) :
    (dropletItf stack droplet eth).entrances i = ⟨e.ip, 0, e.mac⟩ := by
  simp only [dropletItf, if_pos hi, he]

end ArionDp
