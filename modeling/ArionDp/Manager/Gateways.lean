import ArionDp.Manager.Utils
import Mathlib.Data.Fin.VecNotation

/-!
# Gateways of an address range

`getGWsFromIpRange` and the conversions between texts and integers, over their whole ranges.

* `macDigits`, **`intToMac_eq_iff`**: the canonical texts of the 48-bit numbers;
* `AddressCodecs`, **`addressCodecs`**: texts and integers are inverse to each other;
* `GatewayEntry`, **`getGWsFromIpRange_exact`**: the gateways from one quad to another.
-/

namespace ArionDp

open PyText Wire Inet

/-! ## Texts and integers -/

/-- Six octets as the manager writes them: two lower-case digits each, separated by colons. -/
def macDigits (o : Fin 6 → U8) : Text :=
  pyJoin ':' (List.ofFn fun i => [Nat.digitChar ((o i).toNat / 16), Nat.digitChar ((o i).toNat % 16)])

theorem macText_macDigits (o : Fin 6 → U8) : MacText o (macDigits o) :=
  ⟨_, rfl, fun i => isHexOctet_digitChar (o i).isLt⟩

/-- **A 48-bit number is written in canonical form.** -/
theorem intToMac_eq_macDigits {n : ℕ} (h : n < 2 ^ 48) : intToMac (n : ℤ) = macDigits (octets 6 n) := by
  rw [intToMac, pyHex_eq_hexFixed (by omega) (by omega), pyPairs_hexFixed, macDigits]

theorem macToInt_macDigits (o : Fin 6 → U8) : macToInt (macDigits o) = .ok (octetsNat (List.ofFn o) : ℤ) :=
  macToInt_of_macText (macText_macDigits o)

/-- The text forms of addresses and their integers are inverse to each other, on the canonical texts and on all 32-bit
and 48-bit numbers. -/
structure AddressCodecs : Prop where
  ipToInt_ipText : ∀ n : ℕ, n < 2 ^ 32 → ipToInt (ipText (n : ℤ)) = .ok (n : ℤ)
  ipText_ipToInt : ∀ (o : Fin 4 → U8) (n : ℤ), ipToInt (dotted o) = .ok n → ipText n = dotted o
  macToInt_intToMac : ∀ n : ℕ, n < 2 ^ 48 → macToInt (intToMac (n : ℤ)) = .ok (n : ℤ)
  intToMac_macToInt : ∀ (o : Fin 6 → U8) (n : ℤ), macToInt (macDigits o) = .ok n → intToMac n = macDigits o

/-- **Texts and integers are inverse to each other.** -/
theorem addressCodecs : AddressCodecs where
  ipToInt_ipText _ h := ipToInt_ipText h
  ipText_ipToInt o n h := by
    obtain rfl := Except.ok.inj ((ipToInt_dotted o).symm.trans h)
    rw [ipText_eq_dotted, octets_octetsNat]
  macToInt_intToMac n h := by
    rw [intToMac_eq_macDigits h, macToInt_macDigits, octetsNat_octets h]
  intToMac_macToInt o n h := by
    obtain rfl := Except.ok.inj ((macToInt_macDigits o).symm.trans h)
    rw [intToMac_eq_macDigits (octetsNat_lt o), octets_octetsNat]

/-! ## The range -/

/-- The gateway with address `n`: its quad, and the MAC address that goes with it. -/
structure GatewayEntry (mp : MacPrivate) (n : ℤ) (gw : GwAddr) : Prop where
  quad : ∃ o, gw.ip = dotted o
  ip : ipToInt gw.ip = .ok n
  mac : getMacFromIp mp.val gw.ip = .ok gw.mac
  groups : ∃ o, gw.mac = macDigits o
  macInt : macToInt gw.mac = .ok (mp.val + n)

theorem gatewayEntry (mp : MacPrivate) {n : ℕ} (h : n < 2 ^ 32) :
    GatewayEntry mp n ⟨ipText n, intToMac ((mp.val + n : ℕ) : ℤ)⟩ where
  quad := ⟨_, ipText_eq_dotted⟩
  ip := ipToInt_ipText h
  mac := getMacFromIp_ipText mp h
  groups := ⟨_, intToMac_eq_macDigits (macPrivate_add_lt mp h)⟩
  macInt := by
    rw [addressCodecs.macToInt_intToMac _ (macPrivate_add_lt mp h)]
    push_cast
    rfl

/-- **The gateways from one quad to another**: one for each address of the range in order, with its own IP and its own
MAC address, in texts that are inverse to the integers. -/
theorem getGWsFromIpRange_exact (mp : MacPrivate) (a b : Fin 4 → U8) {first last : ℤ}
    (hf : ipToInt (dotted a) = .ok first) (hl : ipToInt (dotted b) = .ok last) (hle : first ≤ last) :
    ∃ gws, getGWsFromIpRange mp.val (dotted a) (dotted b) = .ok gws ∧ (gws.length : ℤ) = last - first + 1 ∧
      (∀ (i : ℕ) gw, gws[i]? = some gw → GatewayEntry mp (first + i) gw) ∧
      (gws.map (·.ip)).Nodup ∧ (gws.map (·.mac)).Nodup ∧ AddressCodecs := by
  obtain rfl := Except.ok.inj ((ipToInt_dotted a).symm.trans hf)
  obtain rfl := Except.ok.inj ((ipToInt_dotted b).symm.trans hl)
  have hlt : ∀ n ∈ rangeIps a b, n < 2 ^ 32 := fun n hn => lt_of_mem_rangeIps hn
  refine ⟨_, getGWsFromIpRange_dotted mp a b, ?_, ?_, ?_, ?_, addressCodecs⟩
  · rw [List.length_map, rangeIps, List.length_map, List.length_range]
    omega
  · intro i gw hi
    rw [rangeIps, List.map_map, List.getElem?_map] at hi
    obtain ⟨j, hj, rfl⟩ := Option.map_eq_some_iff.1 hi
    obtain ⟨hij, rfl⟩ := List.getElem?_eq_some_iff.1 hj
    rw [List.length_range] at hij
    have hb := octetsNat_lt b
    rw [List.getElem_range, Function.comp_apply, ← Nat.cast_add]
    exact gatewayEntry mp (by omega)
  · rw [List.map_map]
    exact (nodup_rangeIps a b).map_on fun m hm n hn h => ipText_inj (hlt m hm) (hlt n hn) h
  · rw [List.map_map]
    refine (nodup_rangeIps a b).map_on fun m hm n hn h => ?_
    have hinj := intToMac_inj (macPrivate_add_lt mp (hlt m hm)) (macPrivate_add_lt mp (hlt n hn)) h
    omega

/-- The addresses 10.0.0.255 and 10.0.1.0. -/
theorem getGWsFromIpRange_exact_sample :
    ∃ gws, getGWsFromIpRange MacPrivate.default.val (dotted ![10, 0, 0, 255]) (dotted ![10, 0, 1, 0]) = .ok gws ∧
      (gws.length : ℤ) = (0x0a000100 : ℤ) - 0x0a0000ff + 1 ∧
      (∀ (i : ℕ) gw, gws[i]? = some gw → GatewayEntry MacPrivate.default (0x0a0000ff + i) gw) ∧
      (gws.map (·.ip)).Nodup ∧ (gws.map (·.mac)).Nodup ∧ AddressCodecs :=
  getGWsFromIpRange_exact MacPrivate.default ![10, 0, 0, 255] ![10, 0, 1, 0] (by decide) (by decide) (by decide)

end ArionDp
