import ArionDp.Lib.Inet
import Mathlib.Data.List.FinRange

/-!
# Addresses of the manager

The conversions of `utils.py` between texts and integers, with the exceptions they raise.

* `MacText`: MAC addresses in text, octet by octet;
* **`ipToInt_dotted`**, **`macToInt_of_macText`**: texts become the big-endian numbers of their
  octets, and `macText_intToMac` is the way back;
* **`getMacFromIp_inj`**: the MAC address determines the IPv4 address;
* **`getGWsFromIpRange_dotted`**: a range of addresses, each one once.
-/

namespace ArionDp

open PyText Wire Inet

/-- A Python string. -/
abbrev Text := List Char

instance : LawfulBEq Text := inferInstance

/-- The exceptions of the manager's requests: Python's own, those of the Kubernetes client and those
of the database. -/
inductive PyError
  | attributeError | indexError | keyError | typeError | valueError | zeroDivisionError
  | apiException | integrityError
  deriving DecidableEq

/-- `int(s, base)` -/
def int (base : ℕ) (s : Text) : Except PyError ℤ :=
  match pyInt base s with
  | some n => .ok n
  | none => .error .valueError

/-- `reduce(lambda a, b: a << 8 | b, xs)` -/
def reduceOctets : List ℤ → Except PyError ℤ
  | [] => .error .typeError
  | a :: as => .ok (as.foldl (fun a b => pyOr (pyShl a 8) b) a)

/-- `ip_to_int` -/
def ipToInt (ipString : Text) : Except PyError ℤ :=
  (pySplit '.' ipString).mapM (int 10) >>= reduceOctets

/-- `mac_to_int`, whose list of six bases bounds the number of groups -/
def macToInt (macString : Text) : Except PyError ℤ :=
  ((pySplit ':' macString).take 6).mapM (int 16) >>= reduceOctets

/-- `int_to_mac` -/
def intToMac (macint : ℤ) : Text :=
  pyJoin ':' ((pyPairs (pyHex 12 macint)).map fun p => [p.1, p.2])

/-- `get_mac_from_ip` -/
def getMacFromIp (macPrivate : ℤ) (ipString : Text) : Except PyError Text := do
  let start ← ipToInt ipString
  pure (intToMac (pyOr start macPrivate))

/-- A gateway of `getGWsFromIpRange`. -/
structure GwAddr where
  ip : Text
  mac : Text
  deriving DecidableEq

/-- The text that `getGWsFromIpRange` makes of an address. -/
def ipText (ipint : ℤ) : Text :=
  pyJoin '.' ([24, 16, 8, 0].map fun n => pyStr (pyAnd (pyShr ipint n) 0xFF))

/-- `getGWsFromIpRange` -/
def getGWsFromIpRange (macPrivate : ℤ) (firstIp lastIp : Text) : Except PyError (List GwAddr) := do
  let start ← ipToInt firstIp
  let last ← ipToInt lastIp
  pure ((List.range (last + 1 - start).toNat).map fun i : ℕ =>
    ⟨ipText (start + i), intToMac (pyOr (start + i) macPrivate)⟩)

/-! ## Octets -/

theorem foldl_octets (o : List U8) (a : ℕ) :
    (o.map fun b => (b.toNat : ℤ)).foldl (fun a b => pyOr (pyShl a 8) b) (a : ℤ) =
      ((o.foldl (fun a b => a * 256 + b.toNat) a : ℕ) : ℤ) := by
  induction o generalizing a with
  | nil => rfl
  | cons b o ih =>
    rw [List.map_cons, List.foldl_cons, List.foldl_cons, pyOr_pyShl _ _ b.isLt]
    exact ih _

/-- **Octets are collected into a number.** -/
theorem reduceOctets_map (b : U8) (o : List U8) :
    reduceOctets ((b :: o).map fun b => (b.toNat : ℤ)) = .ok (octetsNat (b :: o) : ℤ) := by
  rw [List.map_cons, reduceOctets, foldl_octets, octetsNat, List.foldl_cons, Nat.zero_mul,
    Nat.zero_add]

/-- `mapM` over texts that are all read. -/
theorem mapM_int {α : Type} (base : ℕ) (t : α → Text) (n : α → ℤ) (l : List α)
    (h : ∀ a ∈ l, pyInt base (t a) = some (n a)) :
    (l.map t).mapM (int base) = .ok (l.map n) := by
  induction l with
  | nil => rfl
  | cons a l ih =>
    have ha : int base (t a) = .ok (n a) := by
      rw [int, h a (List.mem_cons_self ..)]
    rw [List.map_cons, List.mapM_cons, ha, ih fun b hb => h b (List.mem_cons_of_mem _ hb)]
    rfl

/-! ## IPv4 addresses -/

theorem pySplit_dotted (o : Fin 4 → U8) :
    pySplit '.' (dotted o) = (List.ofFn o).map fun b => pyStr (b.toNat : ℤ) := by
  refine pySplit_pyJoin ?_ (by simp)
  intro l hl
  obtain ⟨b, -, rfl⟩ := List.mem_map.1 hl
  exact dot_not_mem_str_octet _ b.isLt

theorem ipToInt_dotted (o : Fin 4 → U8) : ipToInt (dotted o) = .ok (octetsNat (List.ofFn o) : ℤ) := by
  rw [ipToInt, pySplit_dotted, mapM_int 10 _ (fun b : U8 => (b.toNat : ℤ)) _ fun b _ =>
    pyInt_str_octet _ b.isLt]
  exact reduceOctets_map (o 0) _

/-- The texts of a range are canonical. -/
theorem ipText_eq_dotted {n : ℕ} : ipText (n : ℤ) = dotted (octets 4 n) := by
  simp only [ipText, dotted, octets, List.ofFn_succ, List.ofFn_zero, List.map_cons, List.map_nil,
    pyAnd_pyShr, BitVec.toNat_ofNat]
  rfl

theorem ipToInt_ipText {n : ℕ} (h : n < 2 ^ 32) : ipToInt (ipText (n : ℤ)) = .ok (n : ℤ) := by
  rw [ipText_eq_dotted, ipToInt_dotted, octetsNat_octets h]

/-! ## MAC addresses -/

/-- **A MAC address in text**: six octets of two hexadecimal digits, separated by colons. -/
def MacText (o : Fin 6 → U8) (s : Text) : Prop :=
  ∃ g : Fin 6 → Text, s = pyJoin ':' (List.ofFn g) ∧ ∀ i, IsHexOctet (o i).toNat (g i)

theorem macToInt_of_macText {o : Fin 6 → U8} {s : Text} (h : MacText o s) :
    macToInt s = .ok (octetsNat (List.ofFn o) : ℤ) := by
  obtain ⟨g, rfl, hg⟩ := h
  have hsplit : pySplit ':' (pyJoin ':' (List.ofFn g)) = List.ofFn g := by
    refine pySplit_pyJoin ?_ (by simp)
    intro l hl
    obtain ⟨i, rfl⟩ := List.mem_ofFn.1 hl
    exact (hg i).colon_not_mem
  have hmap : List.ofFn g = (List.finRange 6).map g := List.ofFn_eq_map
  rw [macToInt, hsplit, List.take_of_length_le (by simp), hmap,
    mapM_int 16 g (fun i => ((o i).toNat : ℤ)) _ fun i _ => (hg i).pyInt]
  have hnat : (List.finRange 6).map (fun i => ((o i).toNat : ℤ)) =
      (List.ofFn o).map fun b => (b.toNat : ℤ) := by
    rw [List.ofFn_eq_map, List.map_map]
    rfl
  change reduceOctets ((List.finRange 6).map fun i => ((o i).toNat : ℤ)) = _
  rw [hnat]
  exact reduceOctets_map (o 0) _

theorem pyPairs_hexFixed (n : ℕ) : (pyPairs (hexFixed 12 n)).map (fun p => [p.1, p.2]) =
    List.ofFn fun i => [Nat.digitChar ((octets 6 n i).toNat / 16),
      Nat.digitChar ((octets 6 n i).toNat % 16)] := by
  simp only [hexFixed, List.nil_append, List.cons_append, pyPairs, List.map_cons, List.map_nil,
    List.ofFn_succ, List.ofFn_zero, octets, BitVec.toNat_ofNat, List.cons.injEq, and_true]
  refine ⟨⟨?_, ?_⟩, ⟨?_, ?_⟩, ⟨?_, ?_⟩, ⟨?_, ?_⟩, ⟨?_, ?_⟩, ?_, ?_⟩ <;>
    refine congrArg Nat.digitChar ?_ <;> simp <;> omega

/-- **A 48-bit number is written as a MAC address.** -/
theorem macText_intToMac {n : ℕ} (h : n < 2 ^ 48) : MacText (octets 6 n) (intToMac (n : ℤ)) := by
  refine ⟨_, ?_, fun i => isHexOctet_digitChar (BitVec.isLt _)⟩
  rw [intToMac, pyHex_eq_hexFixed (by omega) (by omega), pyPairs_hexFixed]

theorem intToMac_inj {m n : ℕ} (hm : m < 2 ^ 48) (hn : n < 2 ^ 48)
    (h : intToMac (m : ℤ) = intToMac (n : ℤ)) : m = n := by
  have h1 := macToInt_of_macText (macText_intToMac hm)
  have h2 := macToInt_of_macText (macText_intToMac hn)
  rw [octetsNat_octets hm] at h1
  rw [octetsNat_octets hn, ← h, h1] at h2
  simpa using h2

/-! ## Gateway addresses -/

/-- What the pool needs of `MAC_PRIVATE`: a 48-bit number without low 32 bits. -/
structure MacPrivate where
  val : ℕ
  lt : val < 2 ^ 48
  low : val % 2 ^ 32 = 0

/-- `MAC_PRIVATE` by default -/
def MacPrivate.default : MacPrivate := ⟨0x928300000000, by decide, by decide⟩

/-- The prefix and the address do not overlap. -/
theorem pyOr_macPrivate (mp : MacPrivate) {n : ℕ} (h : n < 2 ^ 32) :
    pyOr (n : ℤ) (mp.val : ℤ) = ((mp.val + n : ℕ) : ℤ) := by
  have hd : mp.val = (mp.val / 2 ^ 32) <<< 32 := by
    rw [Nat.shiftLeft_eq]
    have := mp.low
    omega
  rw [pyOr_natCast, Nat.or_comm, hd, ← Nat.shiftLeft_add_eq_or_of_lt h]

theorem macPrivate_add_lt (mp : MacPrivate) {n : ℕ} (h : n < 2 ^ 32) : mp.val + n < 2 ^ 48 := by
  have h1 := mp.lt
  have h2 := mp.low
  omega

theorem getMacFromIp_ipText (mp : MacPrivate) {n : ℕ} (h : n < 2 ^ 32) :
    getMacFromIp mp.val (ipText n) = .ok (intToMac ((mp.val + n : ℕ) : ℤ)) := by
  rw [getMacFromIp, ipToInt_ipText h, ← pyOr_macPrivate mp h]
  rfl

theorem getMacFromIp_inj (mp : MacPrivate) {m n : ℕ} (hm : m < 2 ^ 32) (hn : n < 2 ^ 32)
    (h : getMacFromIp mp.val (ipText m) = getMacFromIp mp.val (ipText n)) : m = n := by
  rw [getMacFromIp_ipText mp hm, getMacFromIp_ipText mp hn, Except.ok.injEq] at h
  have := intToMac_inj (macPrivate_add_lt mp hm) (macPrivate_add_lt mp hn) h
  omega

theorem ipText_inj {m n : ℕ} (hm : m < 2 ^ 32) (hn : n < 2 ^ 32)
    (h : ipText (m : ℤ) = ipText (n : ℤ)) : m = n := by
  have h1 := ipToInt_ipText hm
  rw [h, ipToInt_ipText hn, Except.ok.injEq] at h1
  exact_mod_cast h1.symm

/-- The addresses from one quad to another. -/
def rangeIps (a b : Fin 4 → U8) : List ℕ :=
  (List.range (octetsNat (List.ofFn b) + 1 - octetsNat (List.ofFn a))).map
    (octetsNat (List.ofFn a) + ·)

theorem lt_of_mem_rangeIps {a b : Fin 4 → U8} {n : ℕ} (h : n ∈ rangeIps a b) : n < 2 ^ 32 := by
  obtain ⟨i, hi, rfl⟩ := List.mem_map.1 h
  have hb := octetsNat_lt b
  have := List.mem_range.1 hi
  omega

theorem nodup_rangeIps (a b : Fin 4 → U8) : (rangeIps a b).Nodup :=
  List.Nodup.map (fun _ _ h => Nat.add_left_cancel h) List.nodup_range

/-- The gateways of a range, whatever the texts of its ends are. -/
theorem getGWsFromIpRange_eq (mp : MacPrivate) {firstIp lastIp : Text} {first last : ℕ}
    (hf : ipToInt firstIp = .ok (first : ℤ)) (hl : ipToInt lastIp = .ok (last : ℤ))
    (h : last < 2 ^ 32) : getGWsFromIpRange mp.val firstIp lastIp =
      .ok (((List.range (last + 1 - first)).map (first + ·)).map fun n : ℕ =>
        ⟨ipText n, intToMac ((mp.val + n : ℕ) : ℤ)⟩) := by
  have hlen : ((last : ℤ) + 1 - (first : ℤ)).toNat = last + 1 - first := by omega
  rw [getGWsFromIpRange, hf, hl]
  refine congrArg Except.ok ?_
  rw [hlen, List.map_map]
  refine List.map_congr_left fun i hi => ?_
  have hlt : first + i < 2 ^ 32 := by
    have := List.mem_range.1 hi
    omega
  have hc : (first : ℤ) + (i : ℤ) = ((first + i : ℕ) : ℤ) := by
    push_cast
    rfl
  rw [Function.comp_apply, hc, pyOr_macPrivate mp hlt]

theorem getGWsFromIpRange_dotted (mp : MacPrivate) (a b : Fin 4 → U8) :
    getGWsFromIpRange mp.val (dotted a) (dotted b) =
      .ok ((rangeIps a b).map fun n : ℕ => ⟨ipText n, intToMac ((mp.val + n : ℕ) : ℤ)⟩) :=
  getGWsFromIpRange_eq mp (ipToInt_dotted a) (ipToInt_dotted b) (octetsNat_lt b)

end ArionDp
