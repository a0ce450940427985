import ArionDp.Cli.Buffers
import ArionDp.Dmn.Droplet

/-!
# The array of a droplet update

`update_droplet_1_svc` on every message that can be decoded: 128 entrances, and a number of entrances that is a field
of its own.

* `DropletMsg`; `updateDropletRun`: the service with the numbers of the entrances that it reads and writes;
* **`updateDropletRun_result`**: within the array it is `updateDroplet1Svc`;
* `StaysInArray`, **`within_updateDropletRun`**, **`staysInArray_iff`**: the messages for which the loop stays in the
  array.
-/

namespace ArionDp

open Wire

/-- `rpc_trn_droplet_t` as it is decoded: a name of 20 bytes at most, and all entrances. -/
structure DropletMsg where
  interface : List Char
  interface_le : interface.length ≤ tranMaxItfSize
  numEntrances : U32
  entrances : Fin tranMaxZgcEntrances → RpcAddr

/-- The entrance that is stored for an address. -/
def RpcAddr.stored (e : RpcAddr) : ZgcEntrance := ⟨e.ip, 0, e.mac⟩

/-- The loop of `update_droplet_1_svc` from `i` on, `n` rounds before its end. Outside the arrays anything can
happen, and the run ends. -/
def storeEntrances (droplet : DropletMsg) :
    ℕ → ℕ → (Fin tranMaxZgcEntrances → ZgcEntrance) → Emit ℕ Unit (Fin tranMaxZgcEntrances → ZgcEntrance)
  | 0, _, entrances => pure entrances
  | n + 1, i, entrances => do
    Emit.emit i
    if h : i < tranMaxZgcEntrances then
      storeEntrances droplet n (i + 1) (Function.update entrances ⟨i, h⟩ (droplet.entrances ⟨i, h⟩).stored)
    else Emit.lift (.error ())

/-- `update_droplet_1_svc`, with the numbers of the entrances that it reads and writes -/
def updateDropletRun (d : Transitd) (stack : Fin tranMaxZgcEntrances → ZgcEntrance) (m : Option IfConfigMap)
    (droplet : DropletMsg) : Emit ℕ Unit (ℤ × Option IfConfigMap) :=
  match trnGetItfContext d droplet.interface with
  | none => pure (rpcTrnError, m)
  | some eth => do
    let entrances ← storeEntrances droplet droplet.numEntrances.toNat 0 stack
    let itf : TunnelIface := ⟨eth.ifaceIndex, eth.iboPort, eth.protocol, eth.role, droplet.numEntrances, entrances⟩
    let r := trnUpdateItfConfig m itf
    pure (if r.1 ≠ 0 then (rpcTrnError, r.2) else (0, r.2))

/-! ## The loop -/

section Loop

variable (droplet : DropletMsg)

/-- **The loop stays in the array** if its last round does. -/
theorem within_storeEntrances (n i : ℕ) (entrances : Fin tranMaxZgcEntrances → ZgcEntrance) :
    Emit.Within (· < tranMaxZgcEntrances) (storeEntrances droplet n i entrances) ↔
      n = 0 ∨ i + n ≤ tranMaxZgcEntrances := by
  induction n generalizing i entrances with
  | zero => exact iff_of_true (Emit.within_pure _) (.inl rfl)
  | succ n ih =>
    rw [storeEntrances, Emit.within_bind, Emit.within_emit]
    by_cases h : i < tranMaxZgcEntrances
    · simp only [dif_pos h, ih, Emit.result_emit, forall_const]
      omega
    · exact iff_of_false (fun hc => h hc.1) (by omega)

/-- What the loop stores. -/
theorem storeEntrances_result {n i : ℕ} (entrances : Fin tranMaxZgcEntrances → ZgcEntrance)
    (h : i + n ≤ tranMaxZgcEntrances) : (storeEntrances droplet n i entrances).result =
      .ok fun k => if i ≤ k.1 ∧ k.1 < i + n then (droplet.entrances k).stored else entrances k := by
  induction n generalizing i entrances with
  | zero =>
    refine congrArg Except.ok (funext fun k => ?_)
    rw [if_neg (by omega)]
  | succ n ih =>
    have hi : i < tranMaxZgcEntrances := by omega
    rw [storeEntrances, Emit.result_bind, dif_pos hi]
    refine (ih _ (by omega)).trans (congrArg Except.ok (funext fun k => ?_))
    by_cases hk : k = ⟨i, hi⟩
    · subst hk
      rw [if_neg (by simp), if_pos (by simp), Function.update_self]
    · have hne : k.1 ≠ i := fun hc => hk (Fin.ext hc)
      have hiff : i + 1 ≤ k.1 ∧ k.1 < i + 1 + n ↔ i ≤ k.1 ∧ k.1 < i + (n + 1) := by omega
      rw [Function.update_of_ne hk, if_congr hiff rfl rfl]

end Loop

/-! ## The service -/

section Service

variable {d : Transitd} (stack : Fin tranMaxZgcEntrances → ZgcEntrance) (m : Option IfConfigMap)
  {droplet : DropletMsg}

/-- **Within the array**, the run is the service. -/
theorem updateDropletRun_result (h : droplet.numEntrances.toNat ≤ tranMaxZgcEntrances) :
    (updateDropletRun d stack m droplet).result =
      .ok (updateDroplet1Svc d stack m ⟨droplet.interface, droplet.numEntrances, List.ofFn droplet.entrances⟩) := by
  unfold updateDropletRun updateDroplet1Svc
  dsimp only
  cases trnGetItfContext d droplet.interface with
  | none => rfl
  | some eth =>
    dsimp only
    rw [Emit.result_bind, storeEntrances_result droplet stack (by omega)]
    have hitf : (⟨eth.ifaceIndex, eth.iboPort, eth.protocol, eth.role, droplet.numEntrances, fun k =>
        if 0 ≤ k.1 ∧ k.1 < 0 + droplet.numEntrances.toNat then (droplet.entrances k).stored else stack k⟩ :
          TunnelIface) =
        dropletItf stack ⟨droplet.interface, droplet.numEntrances, List.ofFn droplet.entrances⟩ eth := by
      refine congrArg (TunnelIface.mk _ _ _ _ _) (funext fun k => ?_)
      have hiff : 0 ≤ k.1 ∧ k.1 < 0 + droplet.numEntrances.toNat ↔ k.1 < droplet.numEntrances.toNat := by omega
      simp only [hiff, List.getElem?_ofFn, k.isLt, dif_pos, RpcAddr.stored]
    rw [← hitf]
    rfl

/-- **The service stays in its arrays**: it reads and writes the entrances that there are, and what it stores for the
interface has no more of them. -/
def StaysInArray (d : Transitd) (stack : Fin tranMaxZgcEntrances → ZgcEntrance) (m : Option IfConfigMap)
    (droplet : DropletMsg) : Prop :=
  Emit.Within (· < tranMaxZgcEntrances) (updateDropletRun d stack m droplet) ∧
    ∀ m' eth, (updateDropletRun d stack m droplet).result = .ok (0, some m') →
      trnGetItfContext d droplet.interface = some eth →
        ∃ itf, m'.content eth.ifaceIndex = some itf ∧ itf.numEntrances.toNat ≤ tranMaxZgcEntrances

end Service

/-- Where the service reads and writes: nothing in it checks the number of entrances. -/
theorem within_updateDropletRun (d : Transitd) (stack : Fin tranMaxZgcEntrances → ZgcEntrance)
    (m : Option IfConfigMap) (droplet : DropletMsg) :
    Emit.Within (· < tranMaxZgcEntrances) (updateDropletRun d stack m droplet) ↔
      trnGetItfContext d droplet.interface = none ∨ droplet.numEntrances.toNat ≤ tranMaxZgcEntrances := by
  unfold updateDropletRun
  cases trnGetItfContext d droplet.interface with
  | none => exact iff_of_true (Emit.within_pure _) (.inl rfl)
  | some eth =>
    dsimp only
    rw [Emit.within_bind, within_storeEntrances, and_iff_left fun _ _ => Emit.within_pure _]
    simp only [reduceCtorEq, false_or]
    omega

/-- **The messages for which the service stays in its arrays**: those for unknown interfaces, and those with 128
entrances at most. -/
theorem staysInArray_iff (d : Transitd) (stack : Fin tranMaxZgcEntrances → ZgcEntrance) (m : Option IfConfigMap)
    (droplet : DropletMsg) : StaysInArray d stack m droplet ↔
      trnGetItfContext d droplet.interface = none ∨ droplet.numEntrances.toNat ≤ tranMaxZgcEntrances := by
  rw [StaysInArray, within_updateDropletRun, and_iff_left_of_imp]
  rintro h m' eth hres heth
  have hknown : trnGetItfContext d droplet.interface ≠ none := by
    rw [heth]
    exact Option.some_ne_none _
  have hle := h.resolve_left hknown
  rw [updateDropletRun_result stack m hle, Except.ok.injEq] at hres
  cases m with
  | none =>
    rw [updateDroplet1Svc, heth] at hres
    cases hres
  | some m =>
    cases hentry : d.entry stack ⟨droplet.interface, droplet.numEntrances, List.ofFn droplet.entrances⟩ with
    | none =>
      rw [(updateDroplet_entry d stack _ m).1 hentry] at hres
      cases hres
    | some e =>
      obtain ⟨m'', hrun, hlook⟩ := (updateDroplet_entry d stack _ m).2 e hentry
      obtain ⟨eth', heth', -, rfl⟩ := entry_eq_some.1 hentry
      obtain rfl := Option.some.inj (heth.symm.trans heth')
      rw [hrun] at hres
      obtain rfl := Option.some.inj (Prod.mk.inj hres).2
      refine ⟨dropletItf stack ⟨droplet.interface, droplet.numEntrances, List.ofFn droplet.entrances⟩ eth, ?_, hle⟩
      rw [IfConfigMap.content, hlook]
      exact Function.update_self ..

/-- A daemon that has loaded the program on `eth1`. -/
def sampleTransitd : Transitd where
  ifNametoindex name := if name = "eth1".toList then 2 else 0
  md := some fun _ => ⟨2, 0, 0, 0⟩

/-- A message for `eth1` with 129 entrances by its number. -/
def sampleDropletMsg : DropletMsg where
  interface := "eth1".toList
  interface_le := by decide
  numEntrances := 129
  entrances _ := ⟨0x0100000a, ![0x02, 0x00, 0x0a, 0x00, 0x00, 0x01]⟩

/-- **The entrance behind the last one is read and written.** -/
theorem updateDroplet_overrun :
    ¬ StaysInArray sampleTransitd (fun _ => ⟨0, 0, fun _ => 0⟩) (some .new) sampleDropletMsg := by
  intro h
  rcases (within_updateDropletRun ..).1 h.1 with hnone | hle
  · exact absurd hnone (Option.isSome_iff_ne_none.1 (by decide))
  · exact absurd hle (by decide)

end ArionDp
