import ArionDp.Cli.CJsonSafety
import ArionDp.Lib.JsonText

/-!
# Strings are read back from their texts

What `parse_string` makes of the text that `json.dumps` writes of a string.

* `At`: what is in the buffer at an offset;
* `utf8`, `bytesOf`: characters as bytes, in UTF-8, and those of a text;
* **`utf8Bytes_toNat`**, **`decodeLoop_escapeChar`**: characters and their escape sequences;
* `ScansTo`, **`parseString_quote`**: the end of a string is found, and its characters are read back.
-/

namespace ArionDp

open Wire Strtod JsonText PyText

/-- The bytes at an offset of the buffer. -/
def At (content : Bytes) (offset : ℕ) (w : Bytes) : Prop := w <+: content.drop offset

section At

variable {content : Bytes} {p : ℕ} {b : U8} {v w : Bytes}

theorem At.get (h : At content p (b :: w)) : content[p]? = some b := by
  obtain ⟨l, hl⟩ := h
  rw [← List.head?_drop, ← hl]
  rfl

theorem At.tail (h : At content p (b :: w)) : At content (p + 1) w := by
  obtain ⟨l, hl⟩ := h
  refine ⟨l, ?_⟩
  rw [← List.drop_drop, ← hl]
  rfl

theorem At.left (h : At content p (v ++ w)) : At content p v := (List.prefix_append v w).trans h

theorem At.right (h : At content p (v ++ w)) : At content (p + v.length) w := by
  induction v generalizing p with
  | nil => exact h
  | cons b v ih =>
    rw [List.length_cons, Nat.add_comm v.length, ← Nat.add_assoc]
    exact ih h.tail

theorem At.length_le (h : At content p w) (hw : w ≠ []) : p + w.length ≤ content.length := by
  have hle := List.IsPrefix.length_le h
  have hpos := List.length_pos_iff.2 hw
  rw [List.length_drop] at hle
  omega

/-- No white space is skipped in front of another byte. -/
theorem At.skip (h : At content p (b :: w)) (hb : blank b = false) : bufferSkipWhitespace content p = p := by
  obtain ⟨hlt, hget⟩ := List.getElem?_eq_some_iff.1 h.get
  simp only [bufferSkipWhitespace]
  rw [List.drop_eq_getElem_cons hlt, hget, List.takeWhile_cons_of_neg (by simp [hb]), List.length_nil, Nat.add_zero,
    if_neg hlt.ne]

/-- One space is skipped. -/
theorem At.skip_space (h : At content p (ch ' ' :: b :: w)) (hb : blank b = false) :
    bufferSkipWhitespace content p = p + 1 := by
  obtain ⟨hlt, hget⟩ := List.getElem?_eq_some_iff.1 h.get
  obtain ⟨hlt', hget'⟩ := List.getElem?_eq_some_iff.1 h.tail.get
  simp only [bufferSkipWhitespace]
  rw [List.drop_eq_getElem_cons hlt, hget, List.takeWhile_cons_of_pos (by decide), List.drop_eq_getElem_cons hlt',
    hget', List.takeWhile_cons_of_neg (by simp [hb]), List.length_singleton, if_neg hlt'.ne]

end At

/-! ## Characters -/

/-- A character in UTF-8. -/
def utf8 (c : Char) : Bytes := (String.utf8EncodeChar c).map UInt8.toBitVec

/-- The mark of a byte that is not the first one. -/
theorem continuation_eq (v : ℕ) : (v ||| 0x80) &&& 0xBF = v % 64 + 0x80 := by
  have hlow : (v ||| 0x80) &&& 0xBF = (v % 256 ||| 0x80) &&& 0xBF := by
    rw [show 0xBF = 0xFF &&& 0xBF from rfl, ← Nat.and_assoc, ← Nat.and_assoc]
    congr 1
    rw [show (0xFF : ℕ) = 2 ^ 8 - 1 from rfl, Nat.and_two_pow_sub_one_eq_mod, Nat.and_two_pow_sub_one_eq_mod,
      Nat.or_mod_two_pow, Nat.or_mod_two_pow, Nat.mod_mod]
  have hbyte : ∀ a < 256, (a ||| 0x80) &&& 0xBF = a % 64 + 0x80 := by decide +kernel
  rw [hlow, hbyte _ (Nat.mod_lt v (by decide)), Nat.mod_mod_of_dvd v (by decide)]

theorem toNat_lt_max (c : Char) : c.toNat < 0x110000 := by
  have := c.valid
  rw [UInt32.isValidChar, Nat.isValidChar] at this
  simp only [Char.toNat]
  omega

/-- **A code point is encoded in UTF-8.** -/
theorem utf8Bytes_toNat (c : Char) : utf8Bytes c.toNat = some (utf8 c) := by
  have hmax := toNat_lt_max c
  have h2 : ∀ a < 32, (a ||| 0xC0) &&& 0xFF = a % 0x20 + 0xC0 := by decide
  have h3 : ∀ a < 16, (a ||| 0xE0) &&& 0xFF = a % 0x10 + 0xE0 := by decide
  have h4 : ∀ a < 8, (a ||| 0xF0) &&& 0xFF = a % 0x08 + 0xF0 := by decide
  unfold utf8 String.utf8EncodeChar utf8Bytes
  simp only [Char.toNat] at hmax ⊢
  generalize c.val.toNat = v at hmax ⊢
  by_cases hone : v ≤ 0x7F
  · rw [if_pos (by omega), if_pos hone, show v &&& 0x7F = v from
      (Nat.and_two_pow_sub_one_eq_mod v 7).trans (Nat.mod_eq_of_lt (by omega))]
    rfl
  by_cases htwo : v ≤ 0x7FF
  · rw [if_neg (by omega), if_pos (by omega), if_neg hone, if_pos htwo]
    simp only [Option.bind_eq_bind, Option.bind_some, utf8Loop, continuation_eq, Nat.shiftRight_eq_div_pow]
    rw [h2 _ (by omega)]
    rfl
  by_cases hthree : v ≤ 0xFFFF
  · rw [if_neg (by omega), if_neg (by omega), if_pos (by omega), if_neg hone, if_neg htwo, if_pos hthree]
    simp only [Option.bind_eq_bind, Option.bind_some, utf8Loop, continuation_eq, Nat.shiftRight_eq_div_pow,
      Nat.div_div_eq_div_mul]
    rw [h3 _ (by omega)]
    rfl
  · rw [if_neg (by omega), if_neg (by omega), if_neg (by omega), if_pos (by omega), if_neg hone, if_neg htwo,
      if_neg hthree]
    simp only [Option.bind_eq_bind, Option.bind_some, utf8Loop, continuation_eq, Nat.shiftRight_eq_div_pow,
      Nat.div_div_eq_div_mul]
    rw [h4 _ (by omega)]
    rfl

/-- The bytes of a text. -/
def bytesOf (s : List Char) : Bytes := s.map ch

@[simp] theorem bytesOf_append (s t : List Char) : bytesOf (s ++ t) = bytesOf s ++ bytesOf t := List.map_append

@[simp] theorem bytesOf_nil : bytesOf [] = [] := rfl

@[simp] theorem bytesOf_cons (c : Char) (s : List Char) : bytesOf (c :: s) = ch c :: bytesOf s := rfl

@[simp] theorem length_bytesOf (s : List Char) : (bytesOf s).length = s.length := List.length_map _

theorem hexDigit_digitChar : ∀ n < 16, hexDigit (ch (Nat.digitChar n)) = some n := by decide

section Codes

variable {content : Bytes} {p e : ℕ} {w : Bytes}

/-- A round of `parse_hex4` at a digit. -/
theorem hex4Loop_digit {n i h d : ℕ} (hd : d < 16) (hi : content[i]? = some (ch (Nat.digitChar d))) :
    hex4Loop content (n + 1) i h = hex4Loop content n (i + 1) (if 0 < n then (h + d) * 16 else h + d) := by
  simp only [hex4Loop, hi, Option.bind_eq_bind, Option.bind_some, hexDigit_digitChar d hd, Nat.shiftLeft_eq]

/-- **Four hexadecimal digits** are read back. -/
theorem parseHex4_hexFixed {n : ℕ} (hn : n < 0x10000) (h : At content p (bytesOf (hexFixed 4 n))) :
    parseHex4 content p = some n := by
  have hdigits : bytesOf (hexFixed 4 n) =
      [ch (Nat.digitChar (n / 16 / 16 / 16 % 16)), ch (Nat.digitChar (n / 16 / 16 % 16)),
        ch (Nat.digitChar (n / 16 % 16)), ch (Nat.digitChar (n % 16))] := by
    simp [hexFixed]
  rw [hdigits] at h
  rw [parseHex4, hex4Loop_digit (Nat.mod_lt _ (by decide)) h.get, hex4Loop_digit (Nat.mod_lt _ (by decide)) h.tail.get,
    hex4Loop_digit (Nat.mod_lt _ (by decide)) h.tail.tail.get,
    hex4Loop_digit (Nat.mod_lt _ (by decide)) h.tail.tail.tail.get, hex4Loop]
  congr 1
  simp only [Nat.lt_irrefl, if_false, show (0 : ℕ) < 1 + 1 + 1 from by decide, show (0 : ℕ) < 1 + 1 from by decide,
    show (0 : ℕ) < 1 from by decide, if_true]
  omega

/-- A code unit that is no surrogate. -/
theorem utf16LiteralToUtf8_codeUnit {c : Char} (hc : c.toNat < 0x10000) (he : p + 6 ≤ e)
    (h : At content p (bytesOf (codeUnit c.toNat))) :
    utf16LiteralToUtf8 content p e = some (some (utf8 c, 6)) := by
  have hvalid := c.valid
  rw [UInt32.isValidChar, Nat.isValidChar] at hvalid
  simp only [Char.toNat] at hc h
  rw [utf16LiteralToUtf8, if_neg (by omega), parseHex4_hexFixed hc h.tail.tail]
  simp only [Option.bind_eq_bind, Option.bind_some]
  rw [if_neg (by omega), if_neg (by omega)]
  have hbytes := utf8Bytes_toNat c
  simp only [Char.toNat] at hbytes
  rw [hbytes]
  rfl

/-- The halves of a pair. -/
theorem surrogates {v : ℕ} (hv : v < 0x100000) : 0xD800 ||| ((v >>> 10) &&& 0x3FF) = 0xD800 + v / 1024 ∧
    0xDC00 ||| (v &&& 0x3FF) = 0xDC00 + v % 1024 := by
  rw [show (0x3FF : ℕ) = 2 ^ 10 - 1 from rfl, Nat.and_two_pow_sub_one_eq_mod, Nat.and_two_pow_sub_one_eq_mod,
    Nat.shiftRight_eq_div_pow]
  have hhigh : v / 2 ^ 10 % 2 ^ 10 = v / 1024 := Nat.mod_eq_of_lt (by omega)
  constructor
  · rw [hhigh, show (0xD800 : ℕ) = 54 <<< 10 from rfl, ← Nat.shiftLeft_add_eq_or_of_lt (by omega)]
  · rw [show (0xDC00 : ℕ) = 55 <<< 10 from rfl, ← Nat.shiftLeft_add_eq_or_of_lt (Nat.mod_lt _ (by decide))]

/-- A pair of surrogates. -/
theorem utf16LiteralToUtf8_pair {c : Char} (hc : ¬ c.toNat < 0x10000) (he : p + 12 ≤ e)
    (h : At content p (bytesOf (codeUnit (0xD800 ||| (((c.toNat - 0x10000) >>> 10) &&& 0x3FF)) ++
      codeUnit (0xDC00 ||| ((c.toNat - 0x10000) &&& 0x3FF))))) :
    utf16LiteralToUtf8 content p e = some (some (utf8 c, 12)) := by
  have hmax := toNat_lt_max c
  obtain ⟨v, hv⟩ := Nat.exists_eq_add_of_le (not_lt.1 hc)
  rw [hv, Nat.add_sub_cancel_left, (surrogates (v := v) (by omega)).1, (surrogates (v := v) (by omega)).2,
    bytesOf_append] at h
  have hsecond := h.right
  rw [length_bytesOf, length_codeUnit] at hsecond
  rw [utf16LiteralToUtf8, if_neg (by omega), parseHex4_hexFixed (n := 0xD800 + v / 1024) (by omega) h.left.tail.tail]
  simp only [Option.bind_eq_bind, Option.bind_some]
  rw [if_neg (by omega), if_pos (by omega), if_neg (by omega), hsecond.get, hsecond.tail.get,
    parseHex4_hexFixed (n := 0xDC00 + v % 1024) (by omega) hsecond.tail.tail]
  simp only [Option.bind_some, ne_eq, not_true_eq_false, if_false]
  have hcodepoint : 0x10000 + ((((0xD800 + v / 1024) &&& 0x3FF) <<< 10) ||| ((0xDC00 + v % 1024) &&& 0x3FF)) =
      c.toNat := by
    rw [show (0x3FF : ℕ) = 2 ^ 10 - 1 from rfl, Nat.and_two_pow_sub_one_eq_mod, Nat.and_two_pow_sub_one_eq_mod,
      ← Nat.shiftLeft_add_eq_or_of_lt (Nat.mod_lt _ (by decide)), Nat.shiftLeft_eq, hv]
    omega
  rw [if_neg (by omega), hcodepoint, utf8Bytes_toNat]
  rfl

/-- Escape sequences of two bytes, and the characters they stand for. -/
theorem escaped_escapeDct :
    ∀ x ∈ escapeDct, escaped (ch x.2) = some (ch x.1) ∧ utf8 x.1 = [ch x.1] := by
  decide

/-- The byte of a printable character. -/
theorem toNat_ch {c : Char} (h : Printable c) : (ch c).toNat = c.toNat ∧ 32 ≤ c.toNat ∧ c.toNat ≤ 126 := by
  have hlow : 32 ≤ c.toNat := UInt32.le_iff_toNat_le.1 h.1
  have hhigh : c.toNat ≤ 126 := UInt32.le_iff_toNat_le.1 h.2
  rw [ch, BitVec.toNat_ofNat]
  exact ⟨Nat.mod_eq_of_lt (by omega), hlow, hhigh⟩

/-- Printable characters are told apart by their bytes. -/
theorem ch_inj {c d : Char} (hc : Printable c) (hd : Printable d) (h : ch c = ch d) : c = d := by
  have hnat : c.toNat = d.toNat := by rw [← (toNat_ch hc).1, ← (toNat_ch hd).1, h]
  rw [← Char.ofNat_toNat c, hnat, Char.ofNat_toNat]

theorem utf8_printable {c : Char} (h : Printable c) : utf8 c = [ch c] := by
  have hle : c.val.toNat ≤ 0x7F := (toNat_ch h).2.2.trans (by decide)
  rw [utf8, String.utf8EncodeChar, if_pos hle]
  rfl

theorem utf8_length_le (c : Char) : (utf8 c).length ≤ 4 ∧ (c.toNat < 0x10000 → (utf8 c).length ≤ 3) :=
  utf8Bytes_length (utf8Bytes_toNat c)

variable {start size skipped n : ℕ} {output : Bytes}

/-- **A character is decoded** in one round. -/
theorem decodeLoop_escapeChar (c : Char) (hsize : e + 2 ≤ size + skipped + start)
    (hfits : Fits content start e skipped p output) (hp : p + (escapeChar c).length ≤ e)
    (h : At content p (bytesOf (escapeChar c))) :
    Fits content start e skipped (p + (escapeChar c).length) (output ++ utf8 c) ∧
      decodeLoop content e size (n + 1) p output =
        decodeLoop content e size n (p + (escapeChar c).length) (output ++ utf8 c) := by
  unfold escapeChar at h hp ⊢
  cases hfind : escapeDct.find? fun x => x.1 = c with
  | some x =>
    obtain ⟨hesc, hutf8⟩ := escaped_escapeDct x (List.mem_of_find?_eq_some hfind)
    have hx := List.find?_some hfind
    obtain rfl : x.1 = c := of_decide_eq_true hx
    simp only [hfind] at h hp ⊢
    rw [hutf8]
    exact decodeLoop_escaped hsize (by simp at hp; omega) hfits h.get h.tail.get hesc
  | none =>
  simp only [hfind] at h hp ⊢
  split_ifs at h hp ⊢ with h8 h9
  · have hback : c ≠ '\\' := by
      rintro rfl
      exact absurd hfind (by decide)
    rw [utf8_printable h8]
    exact decodeLoop_byte hsize (by simp at hp; omega) hfits h.get (mt (ch_inj h8 (by decide)) hback)
  · rw [length_codeUnit] at hp ⊢
    exact decodeLoop_code hsize (by omega) hfits h.get h.tail.get (utf16LiteralToUtf8_codeUnit h9 hp h)
      (k := 3) rfl hp ((utf8_length_le c).2 h9)
  · rw [List.length_append, length_codeUnit, length_codeUnit] at hp ⊢
    exact decodeLoop_code hsize (by omega) hfits h.get h.tail.get (utf16LiteralToUtf8_pair h9 hp h)
      (k := 6) rfl hp ((utf8_length_le c).1.trans (by decide))

/-- **A string is decoded** up to its closing quote. -/
theorem decodeLoop_chars (s : List Char) (hsize : e + 2 ≤ size + skipped + start)
    (hfits : Fits content start e skipped p output) (hn : s.length < n) (he : p + (s.flatMap escapeChar).length = e)
    (h : At content p (bytesOf (s.flatMap escapeChar))) :
    decodeLoop content e size n p output = some (.yes (output ++ s.flatMap utf8) (e + 1)) := by
  induction s generalizing n p output with
  | nil =>
    obtain ⟨n, rfl⟩ := Nat.exists_eq_add_of_lt hn
    rw [List.flatMap_nil, List.append_nil]
    exact decodeLoop_end hsize (by simpa using he.ge) (by simp at he; omega) hfits
  | cons c s ih =>
    obtain ⟨n, rfl⟩ := Nat.exists_eq_add_of_lt hn
    rw [List.flatMap_cons, bytesOf_append] at h
    rw [List.flatMap_cons, List.length_append] at he
    obtain ⟨hfits', hstep⟩ := decodeLoop_escapeChar (n := (c :: s).length + n) c hsize hfits (by omega) h.left
    have hright := h.right
    rw [length_bytesOf] at hright
    rw [hstep, ih hfits' (by rw [List.length_cons]; omega) (by omega) hright, List.flatMap_cons, List.append_assoc]

end Codes

/-! ## Strings -/

section Strings

variable {content : Bytes} {p e : ℕ}

/-- The scan from `p` on finds the closing quote at `e`. -/
def ScansTo (content : Bytes) (e p : ℕ) : Prop :=
  ∀ n k, e < n + p → ∃ k', scanLoop content n p k = some (some (e, k'))

theorem scansTo_quote (h : content[e]? = some (ch '"')) : ScansTo content e e := by
  intro n k hn
  obtain ⟨n, rfl⟩ : ∃ m, n = m + 1 := Nat.exists_eq_succ_of_ne_zero (by omega)
  have hlt := (List.getElem?_eq_some_iff.1 h).1
  exact ⟨k, by simp only [scanLoop, if_neg (not_le.2 hlt), h, Option.bind_eq_bind, Option.bind_some, if_true]⟩

theorem ScansTo.byte {b : U8} (h : content[p]? = some b) (hquote : b ≠ ch '"') (hback : b ≠ ch '\\')
    (hp : p < e) (hscan : ScansTo content e (p + 1)) : ScansTo content e p := by
  intro n k hn
  obtain ⟨n, rfl⟩ : ∃ m, n = m + 1 := Nat.exists_eq_succ_of_ne_zero (by omega)
  have hlt := (List.getElem?_eq_some_iff.1 h).1
  obtain ⟨k', hk'⟩ := hscan n k (by omega)
  exact ⟨k', by simp only [scanLoop, if_neg (not_le.2 hlt), h, Option.bind_eq_bind, Option.bind_some, if_neg hquote,
    if_neg hback, hk']⟩

theorem ScansTo.escape {b : U8} (h : content[p]? = some (ch '\\')) (hb : content[p + 1]? = some b)
    (hp : p < e) (hscan : ScansTo content e (p + 2)) : ScansTo content e p := by
  intro n k hn
  obtain ⟨n, rfl⟩ : ∃ m, n = m + 1 := Nat.exists_eq_succ_of_ne_zero (by omega)
  have hlt := (List.getElem?_eq_some_iff.1 h).1
  have hlt' := (List.getElem?_eq_some_iff.1 hb).1
  have hne : ch '\\' ≠ ch '"' := by decide
  obtain ⟨k', hk'⟩ := hscan n (k + 1) (by omega)
  exact ⟨k', by simp only [scanLoop, if_neg (not_le.2 hlt), h, Option.bind_eq_bind, Option.bind_some, if_neg hne,
    if_true, if_neg (not_le.2 hlt'), hk']⟩

theorem ScansTo.codeUnit {n : ℕ} (h : At content p (bytesOf (codeUnit n))) (hp : p + 6 ≤ e)
    (hscan : ScansTo content e (p + 6)) : ScansTo content e p := by
  have hdigit : ∀ d < 16, ch (Nat.digitChar d) ≠ ch '"' ∧ ch (Nat.digitChar d) ≠ ch '\\' := by decide
  have hstep {q d : ℕ} (hd : d < 16) (hq : content[q]? = some (ch (Nat.digitChar d))) (hqe : q < e)
      (hscan : ScansTo content e (q + 1)) : ScansTo content e q :=
    hscan.byte hq (hdigit d hd).1 (hdigit d hd).2 hqe
  have hw := h.tail.tail
  refine .escape h.get h.tail.get (by omega) ?_
  refine hstep (Nat.mod_lt _ (by decide)) hw.get (by omega) ?_
  refine hstep (Nat.mod_lt _ (by decide)) hw.tail.get (by omega) ?_
  refine hstep (Nat.mod_lt _ (by decide)) hw.tail.tail.get (by omega) ?_
  exact hstep (Nat.mod_lt _ (by decide)) hw.tail.tail.tail.get (by omega) hscan

/-- No quote of an escape sequence is taken for the closing one. -/
theorem ScansTo.escapeChar (c : Char) (h : At content p (bytesOf (escapeChar c)))
    (hp : p + (escapeChar c).length ≤ e) (hscan : ScansTo content e (p + (escapeChar c).length)) :
    ScansTo content e p := by
  unfold JsonText.escapeChar at h hp hscan
  cases hfind : escapeDct.find? fun x => x.1 = c with
  | some x =>
    simp only [hfind] at h hp hscan
    exact hscan.escape h.get h.tail.get (by simp at hp; omega)
  | none =>
    simp only [hfind] at h hp hscan
    split_ifs at h hp hscan with h8 h9
    · have hquote : c ≠ '"' := by
        rintro rfl
        exact absurd hfind (by decide)
      have hback : c ≠ '\\' := by
        rintro rfl
        exact absurd hfind (by decide)
      exact hscan.byte h.get (mt (ch_inj h8 (by decide)) hquote) (mt (ch_inj h8 (by decide)) hback)
        (by simp at hp; omega)
    · exact .codeUnit h hp hscan
    · rw [bytesOf_append] at h
      exact .codeUnit h.left (by rw [List.length_append, length_codeUnit, length_codeUnit] at hp; omega)
        (.codeUnit h.right hp hscan)

theorem scansTo_chars (s : List Char) (h : At content p (bytesOf (s.flatMap escapeChar)))
    (he : p + (s.flatMap escapeChar).length = e) (hquote : content[e]? = some (ch '"')) : ScansTo content e p := by
  induction s generalizing p with
  | nil =>
    obtain rfl : p = e := he
    exact scansTo_quote hquote
  | cons c s ih =>
    rw [List.flatMap_cons, bytesOf_append] at h
    rw [List.flatMap_cons, List.length_append] at he
    have hright := h.right
    rw [length_bytesOf] at hright
    exact (ih hright (by omega)).escapeChar c h.left (by omega)

/-- **A string is read back**, in UTF-8 and up to its first NUL. -/
theorem parseString_quote (s : List Char) (h : At content p (bytesOf (quote s))) :
    parseString content p = some (.yes (cString (s.flatMap utf8)) (p + (quote s).length)) := by
  have hall := h.length_le (List.cons_ne_nil _ _)
  set e := p + 1 + (s.flatMap escapeChar).length with he
  have hlen : (quote s).length = (s.flatMap escapeChar).length + 2 := by simp [quote]
  rw [length_bytesOf, hlen] at hall
  have hbody : At content (p + 1) (bytesOf (s.flatMap escapeChar ++ ['"'])) := h.tail
  rw [bytesOf_append] at hbody
  have hend := hbody.right.get
  rw [length_bytesOf, ← he] at hend
  obtain ⟨k, hk⟩ := scansTo_chars s hbody.left he.symm hend (content.length + 1) 0 (by omega)
  have hn : content.length < content.length + 1 + (p + 1) := by omega
  obtain ⟨r, hr, hspec⟩ := scanLoop_within 0 hn (by omega)
  obtain ⟨-, -, hcount⟩ := hspec e k (Option.some.inj (hr.symm.trans hk))
  have hle := escapes_le false ((content.take e).drop (p + 1))
  rw [List.length_drop, List.length_take] at hle
  have hchars := length_le_flatMap_escapeChar s
  have hfits : Fits content (p + 1) e k (p + 1) [] := ⟨false, by rw [List.length_nil]; omega⟩
  have hsize : e + 2 ≤ (e - p - k + 1) + k + (p + 1) := by omega
  have hdecode := decodeLoop_chars (n := content.length + 1) s hsize hfits (by omega) he.symm hbody.left
  unfold parseString
  simp only [h.get, Option.bind_eq_bind, Option.bind_some, ne_eq, not_true_eq_false, if_false, hk, hdecode,
    Parsed.andThen, List.nil_append]
  rw [hlen, he]
  congr 2
  omega

end Strings

end ArionDp
