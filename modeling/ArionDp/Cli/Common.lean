import ArionDp.Lib.Inet
import ArionDp.Lib.Json
import ArionDp.Lib.Scanf
import ArionDp.Xdp.DataModel

/-!
# Fields of a configuration

The parsers of `trn_cli_common.c`. A parser reads one field of a JSON object; an error is the
message it prints, and the caller then returns `-EINVAL`.

* `byte_swapLoop`, `macLoop_six`: the two hand-written loops, byte by byte;
* **`trnCliParseJsonNumberU32n_octets`**, **`trnCliParseJsonNumberMac_octets`**,
  **`trnCliParseJsonStrIp_dotted`**, **`trnCliParseJsonStrMac_octets`**: numbers made of octets, dotted
  quads and MAC addresses in text are stored as the octets in written order.
-/

namespace ArionDp

open Wire Inet PyText

/-- A parsed configuration, numbers as doubles. -/
abbrev CJson := Json ℚ

/-- The number of a field. -/
def cliNumber (jsonobj : CJson) (key : String) : Except String ℚ :=
  match jsonobj.getObjectItem key.toList with
  | none => .error ("Missing " ++ key)
  | some (.num valuedouble) => .ok valuedouble
  | some _ => .error ("Invalid " ++ key ++ " type, should be number")

/-- The loop of `trn_cli_parse_json_number_u32n`, `i` rounds before its end. -/
def swapLoop : ℕ → U32 → U32 → U32
  | 0, buf, _ => buf
  | i + 1, buf, tmp => swapLoop i ((buf <<< 8) ||| (tmp &&& 0xFF#32)) (tmp >>> 8)

/-- `trn_cli_parse_json_number_u32n` -/
def trnCliParseJsonNumberU32n (jsonobj : CJson) (key : String) : Except String U32 := do
  let valuedouble ← cliNumber jsonobj key
  pure (swapLoop 4 0 (Json.cUInt 32 valuedouble))

/-- The loop of `trn_cli_parse_json_number_u16n`, `i` rounds before its end. -/
def swapLoop16 : ℕ → U16 → U16 → U16
  | 0, buf, _ => buf
  | i + 1, buf, tmp => swapLoop16 i ((buf <<< 8) ||| (tmp &&& 0xFF#16)) (tmp >>> 8)

/-- `trn_cli_parse_json_number_u16n` -/
def trnCliParseJsonNumberU16n (jsonobj : CJson) (key : String) : Except String U16 := do
  let valuedouble ← cliNumber jsonobj key
  pure (swapLoop16 2 0 (Json.cUInt 16 valuedouble))

/-- The loop of `trn_cli_parse_json_number_mac`, `n` rounds before its end: it fills the buffer from
the back. -/
def macLoop : ℕ → U64 → Mac → Mac
  | 0, _, buf => buf
  | n + 1, vd, buf => macLoop n (vd >>> 8) fun k => if k.1 = n then vd.setWidth 8 else buf k

/-- `trn_cli_parse_json_number_mac` -/
def trnCliParseJsonNumberMac (jsonobj : CJson) (key : String) (buf : Mac) : Except String Mac := do
  let valuedouble ← cliNumber jsonobj key
  pure (macLoop 6 (Json.cUInt 64 valuedouble &&& 0xFFFFFFFFFFFF#64) buf)

/-- `trn_cli_parse_json_number_u32` -/
def trnCliParseJsonNumberU32 (jsonobj : CJson) (key : String) : Except String U32 := do
  let valuedouble ← cliNumber jsonobj key
  pure (Json.cUInt 32 valuedouble)

/-- `trn_cli_parse_json_str_ip`; the address is written to memory in network byte order -/
def trnCliParseJsonStrIp (jsonobj : CJson) (key : String) : Except String U32 :=
  match jsonobj.getObjectItem key.toList with
  | none => .error ("Missing " ++ key)
  | some (.str valuestring) => match Inet.pton valuestring with
    | some octets => .ok (ld32 (octets.map (BitVec.ofNat 8)) 0)
    | none => .error ("Failed to convert ip " ++ String.ofList valuestring)
  | some _ => .error "Invalid ip type, should be string"

/-- `trn_cli_parse_json_string` -/
def trnCliParseJsonString (jsonobj : CJson) (key : String) : Except String (List Char) :=
  match jsonobj.getObjectItem key.toList with
  | none => .error ("Missing " ++ key)
  | some (.str valuestring) => .ok valuestring
  | some _ => .error ("Invalid " ++ key ++ " type, should be string")

/-- `"%hhx:%hhx:%hhx:%hhx:%hhx:%hhx%*c"` -/
def macFormat : List Scanf.Directive :=
  [.hhx, .lit ':', .hhx, .lit ':', .hhx, .lit ':', .hhx, .lit ':', .hhx, .lit ':', .hhx, .skip]

/-- `trn_cli_parse_json_str_mac` -/
def trnCliParseJsonStrMac (jsonobj : CJson) (key : String) : Except String Mac :=
  match jsonobj.getObjectItem key.toList with
  | none => .error ("Missing " ++ key)
  | some (.str valuestring) => match Scanf.sscanf macFormat valuestring with
    | [b0, b1, b2, b3, b4, b5] => .ok ![b0, b1, b2, b3, b4, b5]
    | _ => .error ("Invalid mac " ++ String.ofList valuestring)
  | some _ => .error "Invalid mac type, should be string"

/-! ## The loops -/

/-- The last `n` rounds push `n` bytes under the buffer. -/
theorem byte_swapLoop_apply (n : ℕ) (buf tmp : U32) {k : ℕ} (hk : k < 4) :
    byte (swapLoop n buf tmp) k = if k < n then byte tmp (n - 1 - k) else byte buf (k - n) := by
  induction n generalizing buf tmp with
  | zero => rfl
  | succ n ih =>
    rw [swapLoop, ih]
    by_cases h : k < n
    · rw [if_pos h, if_pos (by omega), byte_ushiftRight]
      congr 1
      omega
    · rw [if_neg h]
      obtain ⟨j, rfl⟩ := Nat.exists_eq_add_of_le (Nat.le_of_not_lt h)
      rw [Nat.add_sub_cancel_left]
      cases j with
      | zero => rw [byte_push_zero, if_pos (by omega), Nat.add_sub_cancel, Nat.add_zero, Nat.sub_self]
      | succ j =>
        rw [byte_push_succ _ _ (by omega), if_neg (by omega)]
        congr 1
        omega

/-- **The swap reverses the bytes.** -/
theorem byte_swapLoop (v : U32) {k : ℕ} (hk : k < 4) :
    byte (swapLoop 4 0 v) k = byte v (3 - k) := by
  rw [byte_swapLoop_apply 4 0 v hk, if_pos hk]

/-- The rounds from `n` on fill the first `n` bytes. -/
theorem macLoop_apply (n : ℕ) (vd : U64) (buf : Mac) (k : Fin 6) :
    macLoop n vd buf k = if k.1 < n then byte vd (n - 1 - k) else buf k := by
  induction n generalizing vd buf with
  | zero => rfl
  | succ n ih =>
    rw [macLoop, ih]
    by_cases h : k.1 < n
    · rw [if_pos h, if_pos (by omega), byte_ushiftRight]
      congr 1
      omega
    · rw [if_neg h]
      by_cases hk : k.1 = n
      · rw [if_pos hk, if_pos (by omega), setWidth_eq_byte]
        congr 1
        omega
      · rw [if_neg hk, if_neg (by omega)]

theorem macLoop_six (v : U64) (buf : Mac) (k : Fin 6) :
    macLoop 6 (v &&& 0xFFFFFFFFFFFF#64) buf k = byte v (5 - k) := by
  have hk := k.isLt
  rw [macLoop_apply, if_pos hk]
  exact byte_mask48 v (by omega)

/-! ## Octets -/

section Octets

variable {jsonobj : CJson} {key : String}

/-- An address sent as a number is stored in network byte order. -/
theorem trnCliParseJsonNumberU32n_octets (o : Fin 4 → U8)
    (h : cliNumber jsonobj key = .ok (octetsNat (List.ofFn o) : ℚ)) :
    trnCliParseJsonNumberU32n jsonobj key = .ok (networkWord o) := by
  rw [trnCliParseJsonNumberU32n, h]
  refine congrArg Except.ok (eq_networkWord fun k => ?_)
  rw [Json.cUInt_natCast, byte_swapLoop _ k.isLt]
  exact (byte_ofNat_octets (w := 4) _ k (by omega)).trans (congrFun (octets_octetsNat o) k)

/-- A MAC address sent as a number is stored in written order. -/
theorem trnCliParseJsonNumberMac_octets (o : Mac) (buf : Mac)
    (h : cliNumber jsonobj key = .ok (octetsNat (List.ofFn o) : ℚ)) :
    trnCliParseJsonNumberMac jsonobj key buf = .ok o := by
  rw [trnCliParseJsonNumberMac, h]
  refine congrArg Except.ok (funext fun k => ?_)
  rw [Json.cUInt_natCast, macLoop_six]
  exact (byte_ofNat_octets (w := 6) _ k (by omega)).trans (congrFun (octets_octetsNat o) k)

/-- An address sent as text is stored in network byte order. -/
theorem trnCliParseJsonStrIp_dotted (o : Fin 4 → U8)
    (h : jsonobj.getObjectItem key.toList = some (.str (dotted o))) :
    trnCliParseJsonStrIp jsonobj key = .ok (networkWord o) := by
  have hb : ((List.ofFn o).map fun b => b.toNat).map (BitVec.ofNat 8) = List.ofFn o := by
    rw [List.map_map]
    exact List.map_id'' (fun b => BitVec.ofNat_toNat 8 b) _
  simp only [trnCliParseJsonStrIp, h, pton_dotted, hb, networkWord]

/-- A MAC address sent as text is stored in written order. -/
theorem trnCliParseJsonStrMac_octets (o : Mac) (g : Fin 6 → List Char)
    (hg : ∀ i, IsHexOctet (o i).toNat (g i))
    (h : jsonobj.getObjectItem key.toList = some (.str (pyJoin ':' (List.ofFn g)))) :
    trnCliParseJsonStrMac jsonobj key = .ok o := by
  have hj : pyJoin ':' (List.ofFn g) = g 0 ++ (':' :: (g 1 ++ (':' :: (g 2 ++ (':' :: (g 3 ++
      (':' :: (g 4 ++ (':' :: (g 5 ++ [])))))))))) := by
    simp [pyJoin, List.intercalate]
  have hcolon : ∀ s : List Char, (':' :: s).takeWhile Scanf.isxdigit = [] := fun s => rfl
  have hscan : Scanf.sscanf macFormat (pyJoin ':' (List.ofFn g)) = [o 0, o 1, o 2, o 3, o 4, o 5] := by
    rw [hj, macFormat, Scanf.sscanf_hhx (hg 0) (hcolon _), Scanf.sscanf_lit,
      Scanf.sscanf_hhx (hg 1) (hcolon _), Scanf.sscanf_lit, Scanf.sscanf_hhx (hg 2) (hcolon _),
      Scanf.sscanf_lit, Scanf.sscanf_hhx (hg 3) (hcolon _), Scanf.sscanf_lit,
      Scanf.sscanf_hhx (hg 4) (hcolon _), Scanf.sscanf_lit, Scanf.sscanf_hhx (hg 5) rfl]
    rfl
  have ho : ![o 0, o 1, o 2, o 3, o 4, o 5] = o := by
    funext i
    obtain ⟨i, hi⟩ := i
    interval_cases i <;> rfl
  simp only [trnCliParseJsonStrMac, h, hscan, ho]

end Octets

end ArionDp
