import ArionDp.Cli.Droplet
import ArionDp.Cli.Xdp
import ArionDp.Lib.Py
import ArionDp.Lib.Writes

/-!
# Where the parsers write

The subcommands call `trn_cli_parse_droplet` and `trn_cli_parse_xdp` with buffers of `TRAN_MAX_ITF_SIZE` bytes for
interface names, which `trn_cli_parse_json_string` fills by `strcpy`.

* `dropletWrites`, `xdpWrites`, **`dropletWrites_result`**, **`xdpWrites_result`**: the parsers with their writes, and
  without them;
* `Contained`: every write stays in its buffer, and what would need more is refused;
* `OverlongArray`, **`parsers_contained_iff`**: the configurations for which that is so. Names are copied whatever
  their length, and an array of `2^32` items and more can pass for a short one.
-/

namespace ArionDp

open Wire

/-- `TRAN_MAX_ITF_SIZE` -/
abbrev tranMaxItfSize : ℕ := 20

/-- The bytes that `strcpy` copies: the text in UTF-8 up to its end or the first NUL, and the terminator. -/
def strcpySize (s : List Char) : ℕ := ((s.takeWhile fun c => c.toNat != 0).map Char.utf8Size).sum + 1

/-- A write of a parser: some bytes of an interface buffer, or an entrance. -/
inductive CliWrite
  | interface (bytes : ℕ)
  | entrance (i : ℕ)
  deriving DecidableEq

/-- The write stays in its buffer. -/
def CliWrite.Fits : CliWrite → Prop
  | .interface bytes => bytes ≤ tranMaxItfSize
  | .entrance i => i < tranMaxZgcEntrances

/-- `trn_cli_parse_json_string` on an interface buffer -/
def copyInterface (jsonobj : CJson) (key : String) : Emit CliWrite String (List Char) := do
  let valuestring ← Emit.lift (trnCliParseJsonString jsonobj key)
  Emit.emit (.interface (strcpySize valuestring))
  pure valuestring

/-- One round of the loop of `trn_cli_parse_droplet`: `inet_pton` writes an address that it accepts, and `sscanf`
bytes of the same entrance. -/
def writeEntrance (i : ℕ) (entrance : CJson) : Emit CliWrite String RpcAddr := do
  let ip ← Emit.lift (trnCliParseJsonStrIp entrance "ip")
  Emit.emit (.entrance i)
  let mac ← Emit.lift (trnCliParseJsonStrMac entrance "mac")
  pure ⟨ip, mac⟩

/-- `trn_cli_parse_droplet` behind the number of entrances -/
def writeEntrances (interface : List Char) (numEntrances : U32) :
    Option CJson → Emit CliWrite String RpcDroplet
  | none => Emit.lift (.error "Error: Missing entrances")
  | some (.arr items) =>
    if BitVec.ofNat 32 items.length ≠ numEntrances then Emit.lift (.error "Error: entrances array size not match")
    else do
      let entrances ← Emit.forIdx writeEntrance 0 items
      pure ⟨interface, numEntrances, entrances⟩
  | some _ => Emit.lift (.error "Error: entrances should be array type")

/-- `trn_cli_parse_droplet`, with what it writes -/
def dropletWrites (jsonobj : CJson) : Emit CliWrite String RpcDroplet := do
  let interface ← copyInterface jsonobj "interface"
  let numEntrances ← Emit.lift (trnCliParseJsonNumberU32 jsonobj "num_entrances")
  if numEntrances.toNat > tranMaxZgcEntrances then Emit.lift (.error "Error: num_entrances over limit 128")
  else writeEntrances interface numEntrances (jsonobj.getObjectItem "entrances".toList)

/-- `trn_cli_parse_xdp`, with what it writes -/
def xdpWrites (jsonobj : CJson) : Emit CliWrite String RpcXdpIntf := do
  let itfTenant ← copyInterface jsonobj "itf_tenant"
  let itfZgc ← copyInterface jsonobj "itf_zgc"
  let iboPort ← Emit.lift (trnCliParseJsonNumberU16n jsonobj "ibo_port")
  let debugMode ← Emit.lift (parseDebugMode jsonobj)
  pure ⟨itfTenant, itfZgc, iboPort, debugMode⟩

/-! ## Without the writes -/

theorem copyInterface_result (jsonobj : CJson) (key : String) :
    (copyInterface jsonobj key).result = trnCliParseJsonString jsonobj key := by
  rw [copyInterface, Emit.result_bind, Emit.result_lift]
  cases trnCliParseJsonString jsonobj key <;> rfl

theorem writeEntrance_result (i : ℕ) (entrance : CJson) :
    (writeEntrance i entrance).result = parseEntrance entrance := by
  rw [writeEntrance, parseEntrance, Emit.result_bind, Emit.result_lift]
  refine congrArg (_ >>= ·) (funext fun ip => ?_)
  rw [Emit.result_bind, Emit.result_emit]
  change ((Emit.lift _ >>= _ : Emit CliWrite String RpcAddr)).result = _
  rw [Emit.result_bind]
  rfl

/-- **The parser of droplets**, its writes forgotten. -/
theorem dropletWrites_result (jsonobj : CJson) : (dropletWrites jsonobj).result = trnCliParseDroplet jsonobj := by
  rw [dropletWrites, trnCliParseDroplet, Emit.result_bind, copyInterface_result]
  refine congrArg (_ >>= ·) (funext fun interface => ?_)
  rw [Emit.result_bind, Emit.result_lift]
  refine congrArg (_ >>= ·) (funext fun numEntrances => ?_)
  split_ifs with hnum
  · rfl
  · cases jsonobj.getObjectItem "entrances".toList with
    | none => rfl
    | some j =>
      cases j with
      | arr items =>
        rw [writeEntrances]
        dsimp only
        split_ifs with hlen
        · rfl
        · rw [Emit.result_bind, Emit.result_forIdx writeEntrance_result]
          rfl
      | _ => rfl

/-- **The parser of interfaces**, its writes forgotten. -/
theorem xdpWrites_result (jsonobj : CJson) : (xdpWrites jsonobj).result = trnCliParseXdp jsonobj := by
  simp only [xdpWrites, trnCliParseXdp, Emit.result_bind, copyInterface_result, Emit.result_lift, Emit.result_pure]
  rfl

/-! ## What stays in the buffers -/

/-- **A parser stays in its buffers**: so does every write, and it refuses what would need more. -/
def Contained {α : Type} (c : Emit CliWrite String α) (needsMore : Prop) : Prop :=
  Emit.Within CliWrite.Fits c ∧ (needsMore → ∃ e, c.result = .error e)

/-- A field is a text that a buffer has no room for. -/
def LongText (jsonobj : CJson) (key : String) : Prop :=
  ∃ s, jsonobj.getObjectItem key.toList = some (.str s) ∧ tranMaxItfSize < strcpySize s

/-- A droplet needs more room than there is. -/
def DropletNeedsMore (jsonobj : CJson) : Prop :=
  LongText jsonobj "interface" ∨
    ∃ items, jsonobj.getObjectItem "entrances".toList = some (.arr items) ∧ tranMaxZgcEntrances < items.length

/-- An array with more items than there are entrances, which passes for one of `num_entrances` items as its length is
cast to 32 bits. Its items are good up to the first one that has no place, whose address is good as well. -/
def OverlongArray (jsonobj : CJson) : Prop :=
  ∃ numEntrances items, trnCliParseJsonNumberU32 jsonobj "num_entrances" = .ok numEntrances ∧
    numEntrances.toNat ≤ tranMaxZgcEntrances ∧
    jsonobj.getObjectItem "entrances".toList = some (.arr items) ∧ BitVec.ofNat 32 items.length = numEntrances ∧
    (∀ entrance ∈ items.take tranMaxZgcEntrances, ∃ a, parseEntrance entrance = .ok a) ∧
    ∃ entrance ip, items[tranMaxZgcEntrances]? = some entrance ∧ trnCliParseJsonStrIp entrance "ip" = .ok ip

section Json

variable {jsonobj : CJson}

theorem trnCliParseJsonString_ok_iff {key : String} {s : List Char} :
    trnCliParseJsonString jsonobj key = .ok s ↔ jsonobj.getObjectItem key.toList = some (.str s) := by
  unfold trnCliParseJsonString
  cases jsonobj.getObjectItem key.toList with
  | none => simp
  | some j => cases j <;> simp

/-- A text is copied whatever its length. -/
theorem within_copyInterface {key : String} :
    Emit.Within CliWrite.Fits (copyInterface jsonobj key) ↔ ¬ LongText jsonobj key := by
  simp only [copyInterface, Emit.within_bind, Emit.within_lift, Emit.result_lift, Emit.within_emit,
    Emit.within_pure, trnCliParseJsonString_ok_iff, LongText, true_and, implies_true, and_true, not_exists, not_and,
    Nat.not_lt]
  rfl

theorem within_writeEntrance {i : ℕ} {entrance : CJson} : Emit.Within CliWrite.Fits (writeEntrance i entrance) ↔
    ∀ ip, trnCliParseJsonStrIp entrance "ip" = .ok ip → i < tranMaxZgcEntrances := by
  simp only [writeEntrance, Emit.within_bind, Emit.within_lift, Emit.result_lift, Emit.within_emit,
    Emit.within_pure, true_and, implies_true, and_true]
  rfl

/-- The entrance that has no place is reached if and only if all before it are good. -/
theorem within_writeEntrances {interface : List Char} {numEntrances : U32}
    (h : trnCliParseJsonNumberU32 jsonobj "num_entrances" = .ok numEntrances)
    (hle : numEntrances.toNat ≤ tranMaxZgcEntrances) :
    Emit.Within CliWrite.Fits
        (writeEntrances interface numEntrances (jsonobj.getObjectItem "entrances".toList)) ↔
      ¬ OverlongArray jsonobj := by
  have hnum : ∀ n, trnCliParseJsonNumberU32 jsonobj "num_entrances" = .ok n ↔ n = numEntrances := fun n => by
    rw [h, Except.ok.injEq, eq_comm]
  simp only [OverlongArray, hnum, exists_and_left, exists_eq_left, hle, true_and]
  cases jsonobj.getObjectItem "entrances".toList with
  | none => simp [writeEntrances]
  | some j =>
    cases j with
    | arr items =>
      rw [writeEntrances]
      by_cases hlen : BitVec.ofNat 32 items.length ≠ numEntrances
      · simp [hlen]
      · rw [if_neg hlen, Emit.within_bind, and_iff_left fun _ _ => Emit.within_pure _,
          Emit.within_forIdx writeEntrance_result]
        simp only [within_writeEntrance, Nat.zero_add]
        constructor
        · rintro hall ⟨_, hitems, -, hgood, entrance, he, ip, hip⟩
          obtain rfl := Json.arr.inj (Option.some.inj hitems)
          exact absurd (hall _ entrance he hgood ip hip) (Nat.lt_irrefl _)
        · intro hno k entrance he hgood ip hip
          by_contra hk
          refine hno ⟨items, rfl, not_not.1 hlen, fun e hmem => hgood e ?_, ?_⟩
          · exact (List.take_prefix_take_left (Nat.le_of_not_lt hk)).subset hmem
          · rcases Nat.eq_or_lt_of_le (Nat.le_of_not_lt hk) with rfl | hlt
            · exact ⟨entrance, he, ip, hip⟩
            · -- the first item without a place is one of the good ones
              obtain ⟨hkl, -⟩ := List.getElem?_eq_some_iff.1 he
              have hfirst := List.getElem?_eq_getElem (hlt.trans hkl)
              obtain ⟨a, ha⟩ := hgood items[tranMaxZgcEntrances] (List.mem_take_iff_getElem.2 ⟨_, by omega, rfl⟩)
              obtain ⟨ip', hip', -⟩ := Py.bind_eq_ok.1 ha
              exact ⟨_, hfirst, ip', hip'⟩
    | _ => simp [writeEntrances]

/-- Where `trn_cli_parse_droplet` writes. -/
theorem within_dropletWrites : Emit.Within CliWrite.Fits (dropletWrites jsonobj) ↔
    ∀ s, jsonobj.getObjectItem "interface".toList = some (.str s) →
      strcpySize s ≤ tranMaxItfSize ∧ ¬ OverlongArray jsonobj := by
  have hitf : Emit.Within CliWrite.Fits (copyInterface jsonobj "interface") ↔
      ∀ s, jsonobj.getObjectItem "interface".toList = some (.str s) → strcpySize s ≤ tranMaxItfSize := by
    rw [within_copyInterface, LongText]
    push Not
    rfl
  have hrest : ∀ interface, Emit.Within CliWrite.Fits (do
      let numEntrances ← Emit.lift (trnCliParseJsonNumberU32 jsonobj "num_entrances")
      if numEntrances.toNat > tranMaxZgcEntrances then Emit.lift (.error "Error: num_entrances over limit 128")
      else writeEntrances interface numEntrances (jsonobj.getObjectItem "entrances".toList)) ↔
        ¬ OverlongArray jsonobj := by
    intro interface
    rw [Emit.within_bind, and_iff_right (Emit.within_lift _), Emit.result_lift]
    constructor
    · rintro h ⟨n, items, hn, hle, hover⟩
      have hin := h n hn
      rw [if_neg (Nat.not_lt.2 hle), within_writeEntrances hn hle] at hin
      exact hin ⟨n, items, hn, hle, hover⟩
    · intro h n hn
      split_ifs with hgt
      · exact Emit.within_lift _
      · exact (within_writeEntrances hn (Nat.not_lt.1 hgt)).2 h
  rw [dropletWrites, Emit.within_bind, hitf, copyInterface_result]
  simp only [hrest, trnCliParseJsonString_ok_iff]
  exact ⟨fun h s hs => ⟨h.1 s hs, h.2 s hs⟩, fun h => ⟨fun s hs => (h s hs).1, fun s hs => (h s hs).2⟩⟩

theorem within_xdpWrites : Emit.Within CliWrite.Fits (xdpWrites jsonobj) ↔
    ∀ s, jsonobj.getObjectItem "itf_tenant".toList = some (.str s) →
      strcpySize s ≤ tranMaxItfSize ∧ ¬ LongText jsonobj "itf_zgc" := by
  simp only [xdpWrites, Emit.within_bind, within_copyInterface, copyInterface_result, Emit.within_lift,
    Emit.within_pure, trnCliParseJsonString_ok_iff, implies_true, and_true]
  rw [LongText]
  push Not
  exact ⟨fun h s hs => ⟨h.1 s hs, h.2 s hs⟩, fun h => ⟨fun s hs => (h s hs).1, fun s hs => (h s hs).2⟩⟩

/-- The items of a list that is parsed are parsed one by one. -/
theorem exists_ok_of_mapM {α β ε : Type} {f : α → Except ε β} {l : List α} {bs : List β} (h : l.mapM f = .ok bs) :
    ∀ a ∈ l, ∃ b, f a = .ok b := by
  induction l generalizing bs with
  | nil => exact fun a ha => absurd ha List.not_mem_nil
  | cons a l ih =>
    rw [List.mapM_cons] at h
    obtain ⟨b, hb, hrest⟩ := Py.bind_eq_ok.1 h
    obtain ⟨bs', hbs, -⟩ := Py.bind_eq_ok.1 hrest
    exact List.forall_mem_cons.2 ⟨⟨b, hb⟩, ih hbs⟩

/-- An accepted droplet with too many entrances has written one of them. -/
theorem overlongArray_of_ok {droplet : RpcDroplet} (h : trnCliParseDroplet jsonobj = .ok droplet)
    {items : List CJson} (hitems : jsonobj.getObjectItem "entrances".toList = some (.arr items))
    (hlong : tranMaxZgcEntrances < items.length) : OverlongArray jsonobj := by
  unfold trnCliParseDroplet at h
  obtain ⟨interface, -, h⟩ := Py.bind_eq_ok.1 h
  obtain ⟨numEntrances, hnum, h⟩ := Py.bind_eq_ok.1 h
  rw [hitems] at h
  dsimp only at h
  by_cases hgt : numEntrances.toNat > tranMaxZgcEntrances
  · rw [if_pos hgt] at h
    cases h
  by_cases hlen : BitVec.ofNat 32 items.length ≠ numEntrances
  · rw [if_neg hgt, if_pos hlen] at h
    cases h
  rw [if_neg hgt, if_neg hlen] at h
  obtain ⟨as, has, -⟩ := Py.bind_eq_ok.1 h
  have hgood := exists_ok_of_mapM has
  obtain ⟨a, ha⟩ := hgood items[tranMaxZgcEntrances] (List.getElem_mem hlong)
  obtain ⟨ip, hip, -⟩ := Py.bind_eq_ok.1 ha
  exact ⟨numEntrances, items, hnum, Nat.not_lt.1 hgt, hitems, not_not.1 hlen,
    fun e he => hgood e (List.mem_of_mem_take he), _, ip, List.getElem?_eq_getElem hlong, hip⟩

/-- **Droplets.** -/
theorem dropletContained_iff : Contained (dropletWrites jsonobj) (DropletNeedsMore jsonobj) ↔
    ∀ s, jsonobj.getObjectItem "interface".toList = some (.str s) →
      strcpySize s ≤ tranMaxItfSize ∧ ¬ OverlongArray jsonobj := by
  rw [Contained, within_dropletWrites, and_iff_left_of_imp]
  rintro hfits (⟨s, hs, hlong⟩ | ⟨items, hitems, hlong⟩)
  · exact absurd (hfits s hs).1 (Nat.not_le.2 hlong)
  · rw [dropletWrites_result]
    cases hr : trnCliParseDroplet jsonobj with
    | error e => exact ⟨e, rfl⟩
    | ok droplet =>
      obtain ⟨s, hs, -⟩ := Py.bind_eq_ok.1 hr
      exact absurd (overlongArray_of_ok hr hitems hlong) (hfits s (trnCliParseJsonString_ok_iff.1 hs)).2

/-- **Interfaces.** -/
theorem xdpContained_iff :
    Contained (xdpWrites jsonobj) (LongText jsonobj "itf_tenant" ∨ LongText jsonobj "itf_zgc") ↔
      ∀ s, jsonobj.getObjectItem "itf_tenant".toList = some (.str s) →
        strcpySize s ≤ tranMaxItfSize ∧ ¬ LongText jsonobj "itf_zgc" := by
  rw [Contained, within_xdpWrites, and_iff_left_of_imp]
  rintro hfits (⟨s, hs, hlong⟩ | hlong)
  · exact absurd (hfits s hs).1 (Nat.not_le.2 hlong)
  · rw [xdpWrites_result]
    cases hr : trnCliParseXdp jsonobj with
    | error e => exact ⟨e, rfl⟩
    | ok intf =>
      obtain ⟨s, hs, -⟩ := Py.bind_eq_ok.1 hr
      exact absurd hlong (hfits s (trnCliParseJsonString_ok_iff.1 hs)).2

end Json

/-- **The configurations whose parsers stay in their buffers**: those without a name of 20 bytes and more that is
copied, and without an overlong array whose items are written. -/
theorem parsers_contained_iff (jsonobj : CJson) :
    (Contained (dropletWrites jsonobj) (DropletNeedsMore jsonobj) ↔
      ∀ s, jsonobj.getObjectItem "interface".toList = some (.str s) →
        strcpySize s ≤ tranMaxItfSize ∧ ¬ OverlongArray jsonobj) ∧
    (Contained (xdpWrites jsonobj) (LongText jsonobj "itf_tenant" ∨ LongText jsonobj "itf_zgc") ↔
      ∀ s, jsonobj.getObjectItem "itf_tenant".toList = some (.str s) →
        strcpySize s ≤ tranMaxItfSize ∧ ¬ LongText jsonobj "itf_zgc") :=
  ⟨dropletContained_iff, xdpContained_iff⟩

/-- A configuration for the interface `tenant-interface-0001`, without entrances. -/
def sampleLongItf : CJson :=
  .obj [("interface".toList, .str "tenant-interface-0001".toList), ("num_entrances".toList, .num 0),
    ("entrances".toList, .arr []), ("itf_tenant".toList, .str "tenant-interface-0001".toList),
    ("itf_zgc".toList, .str "eth1".toList), ("ibo_port".toList, .num 8300)]

/-- **Both parsers accept a name of 21 characters**, and write 22 bytes to a buffer of 20. -/
theorem parsers_overrun :
    (∃ droplet, (dropletWrites sampleLongItf).result = .ok droplet) ∧
      ¬ Contained (dropletWrites sampleLongItf) (DropletNeedsMore sampleLongItf) ∧
      (∃ intf, (xdpWrites sampleLongItf).result = .ok intf) ∧
      ¬ Contained (xdpWrites sampleLongItf)
        (LongText sampleLongItf "itf_tenant" ∨ LongText sampleLongItf "itf_zgc") := by
  have hd : CliWrite.interface 22 ∈ (dropletWrites sampleLongItf).writes := by decide +kernel
  have hx : CliWrite.interface 22 ∈ (xdpWrites sampleLongItf).writes := by decide +kernel
  have hbig : ¬ CliWrite.Fits (.interface 22) := by
    unfold CliWrite.Fits
    decide
  refine ⟨Py.exists_ok_of_isOk (by decide +kernel), fun h => hbig (h.1 _ hd),
    Py.exists_ok_of_isOk (by decide +kernel), fun h => hbig (h.1 _ hx)⟩

end ArionDp
