import ArionDp.Cli.CJson

/-!
# Configurations are parsed within their buffers

On the bytes of a string, the parser returns after finitely many rounds, all its reads are of the string and its
NUL, and no string that it builds is longer than what is allocated for it.

* `Parsed.Within`: how far a function gets;
* `escapes`, **`escapes_drop`**: the escape sequences that are counted in a stretch of text, from either of two phases;
* **`decodeLoop_within`**: the decoded text fits, also where decoding and counting are out of phase;
* **`parseValue_within`**: values, and how deeply they are nested.
-/

namespace ArionDp

open Wire Strtod

/-- The return is behind the offset `start`, if it is one of true, and not behind the end of the buffer. -/
def Parsed.Within {α : Type} (len start : ℕ) (P : α → Prop) : Parsed α → Prop
  | .yes a offset => P a ∧ start < offset ∧ offset ≤ len
  | .no offset => offset ≤ len

/-- A function that returns, within the buffer. -/
def EndsWithin {α : Type} (len start : ℕ) (P : α → Prop) (x : Option (Parsed α)) : Prop :=
  ∃ r, x = some r ∧ r.Within len start P

/-- A function that goes on where another one returned true. -/
theorem Parsed.Within.andThen {α β : Type} {len start start' : ℕ} {P : α → Prop} {Q : β → Prop} {r : Parsed α}
    {f : α → ℕ → Option (Parsed β)} (h : r.Within len start P)
    (hf : ∀ a offset, P a → start < offset → offset ≤ len → EndsWithin len start' Q (f a offset)) :
    EndsWithin len start' Q (r.andThen f) := by
  cases r with
  | yes a offset => exact hf a offset h.1 h.2.1 h.2.2
  | no offset => exact ⟨_, rfl, h⟩

/-! ## Escape sequences -/

/-- The escape sequences that start in a text; the flag says that its first byte belongs to the one before. -/
def escapes : Bool → Bytes → ℕ
  | _, [] => 0
  | true, _ :: w => escapes false w
  | false, b :: w => if b = ch '\\' then escapes true w + 1 else escapes false w

theorem escapes_cons_le (q : Bool) (b : U8) (w : Bytes) : ∃ q', escapes q (b :: w) ≤ escapes q' w + 1 ∧
    (q = true ∨ b ≠ ch '\\' → escapes q (b :: w) = escapes q' w) ∧ (escapes q (b :: w) ≠ escapes q' w → q' = true) := by
  cases q with
  | true => exact ⟨false, Nat.le_succ _, fun _ => rfl, fun h => absurd rfl h⟩
  | false =>
    by_cases hb : b = ch '\\'
    · refine ⟨true, ?_, ?_, fun _ => rfl⟩
      · rw [escapes, if_pos hb]
      · rintro (h | h)
        · exact absurd h Bool.false_ne_true
        · exact absurd hb h
    · refine ⟨false, ?_, fun _ => ?_, fun h => ?_⟩
      · rw [escapes, if_neg hb]
        exact Nat.le_succ _
      · rw [escapes, if_neg hb]
      · rw [escapes, if_neg hb] at h
        exact absurd rfl h

/-- A byte that is no backslash starts no escape sequence. -/
theorem escapes_tail (q : Bool) {w : Bytes} (hw : ∀ b, w.head? = some b → b ≠ ch '\\') :
    ∃ q', escapes q w = escapes q' (w.drop 1) := by
  cases w with
  | nil => exact ⟨q, rfl⟩
  | cons b w =>
    obtain ⟨q', -, h, -⟩ := escapes_cons_le q b w
    exact ⟨q', h (.inr (hw b rfl))⟩

/-- **In `2 n` bytes** at most `n` escape sequences start, from either phase. -/
theorem escapes_drop (n : ℕ) (q : Bool) (w : Bytes) : ∃ q', escapes q w ≤ escapes q' (w.drop (2 * n)) + n := by
  induction n generalizing q w with
  | zero => exact ⟨q, le_refl _⟩
  | succ n ih =>
    match w with
    | [] => exact ⟨q, Nat.zero_le _⟩
    | [b] =>
      obtain ⟨q', h, -, -⟩ := escapes_cons_le q b []
      have hnil : escapes q' [] = 0 := by cases q' <;> rfl
      exact ⟨q', by omega⟩
    | b :: c :: w =>
      obtain ⟨q₁, h₁, -, hphase⟩ := escapes_cons_le q b (c :: w)
      obtain ⟨q₂, h₂, hsame, -⟩ := escapes_cons_le q₁ c w
      obtain ⟨q', h⟩ := ih q₂ w
      refine ⟨q', ?_⟩
      change _ ≤ escapes q' (w.drop (2 * n)) + (n + 1)
      by_cases heq : escapes q (b :: c :: w) = escapes q₁ (c :: w)
      · omega
      · have := hsame (.inl (hphase heq))
        omega

theorem escapes_le (q : Bool) (w : Bytes) : escapes q w ≤ w.length := by
  fun_induction escapes q w with
  | case1 => exact Nat.zero_le _
  | case2 b w ih => exact ih.trans (Nat.le_succ _)
  | case3 w ih => exact Nat.succ_le_succ ih
  | case4 b w hb ih => exact ih.trans (Nat.le_succ _)

section Content

variable {content : Bytes}

/-! ## White space -/

theorem bufferSkipWhitespace_le (content : Bytes) (offset : ℕ) :
    offset ≤ bufferSkipWhitespace content offset + 1 := by
  rw [bufferSkipWhitespace]
  split_ifs <;> omega

theorem bufferSkipWhitespace_lt {offset : ℕ} (h : offset ≤ content.length) (hne : content ≠ []) :
    bufferSkipWhitespace content offset < content.length := by
  have hpos := List.length_pos_iff.2 hne
  have hspace := (List.takeWhile_prefix (l := content.drop offset) blank).length_le
  rw [List.length_drop] at hspace
  simp only [bufferSkipWhitespace]
  split_ifs <;> omega

/-- In front of the end, nothing is skipped backwards. -/
theorem le_bufferSkipWhitespace {offset : ℕ} (h : offset < content.length) :
    offset ≤ bufferSkipWhitespace content offset := by
  simp only [bufferSkipWhitespace]
  split_ifs <;> omega

/-! ## Strings -/

theorem hexDigit_lt {b : U8} {d : ℕ} (h : hexDigit b = some d) : d < 16 := by
  unfold hexDigit at h
  simp only [ch, BitVec.le_def] at h
  split_ifs at h with h1 h2 h3
  · obtain rfl := Option.some.inj h
    exact Nat.lt_of_le_of_lt (Nat.sub_le_sub_right h1.2 48) (by decide)
  · obtain rfl := Option.some.inj h
    exact Nat.lt_of_le_of_lt (Nat.sub_le_sub_right (Nat.add_le_add_left h2.2 10) 65) (by decide)
  · obtain rfl := Option.some.inj h
    exact Nat.lt_of_le_of_lt (Nat.sub_le_sub_right (Nat.add_le_add_left h3.2 10) 97) (by decide)

/-- The loop stays in the buffer, and every round makes the bound of its number four bits longer. -/
theorem hex4Loop_lt {n i h m : ℕ} (hi : i + n ≤ content.length) (hn : 0 < n) (hm : h + 16 ≤ 16 * m) :
    ∃ v, hex4Loop content n i h = some v ∧ v < 16 ^ n * m := by
  induction n generalizing i h m with
  | zero => exact absurd hn (Nat.lt_irrefl 0)
  | succ n ih =>
    have hpow : 16 ≤ 16 ^ (n + 1) := by
      rw [Nat.pow_succ]
      exact Nat.le_mul_of_pos_left 16 (Nat.pow_pos (by decide))
    have hlast : 16 * m ≤ 16 ^ (n + 1) * m := Nat.mul_le_mul_right m hpow
    rw [hex4Loop, List.getElem?_eq_getElem (by omega), Option.bind_eq_bind, Option.bind_some]
    cases hd : hexDigit content[i] with
    | none => exact ⟨0, rfl, by omega⟩
    | some d =>
      have hlt := hexDigit_lt hd
      rcases Nat.eq_zero_or_pos n with rfl | hpos
      · exact ⟨h + d, rfl, by omega⟩
      · obtain ⟨v, hv, hbound⟩ := ih (i := i + 1) (h := (h + d) <<< 4) (m := 16 * m) (by omega) hpos
          (by rw [Nat.shiftLeft_eq]; omega)
        refine ⟨v, ?_, ?_⟩
        · simpa only [if_pos hpos] using hv
        · calc v < 16 ^ n * (16 * m) := hbound
            _ = 16 ^ (n + 1) * m := by rw [Nat.pow_succ, Nat.mul_assoc]

theorem parseHex4_lt {i : ℕ} (hi : i + 4 ≤ content.length) : ∃ v, parseHex4 content i = some v ∧ v < 0x10000 := by
  obtain ⟨v, hv, hlt⟩ := hex4Loop_lt (h := 0) (m := 1) hi (by decide) (by decide)
  exact ⟨v, hv, by simpa using hlt⟩

theorem utf8Bytes_length {codepoint : ℕ} {bs : Bytes} (h : utf8Bytes codepoint = some bs) :
    bs.length ≤ 4 ∧ (codepoint < 0x10000 → bs.length ≤ 3) := by
  unfold utf8Bytes at h
  split_ifs at h with h1 h2 h3 h4
  · obtain rfl := Option.some.inj h
    exact ⟨by simp, fun _ => by simp⟩
  · obtain rfl := Option.some.inj h
    exact ⟨by simp, fun _ => by simp⟩
  · obtain rfl := Option.some.inj h
    exact ⟨by simp, fun _ => by simp⟩
  · obtain rfl := Option.some.inj h
    exact ⟨by simp, fun hlt => absurd hlt h3⟩
  · exact absurd h (Option.some_ne_none bs).symm

/-- A code is read within the literal, and is longer than twice the bytes it stands for. -/
theorem utf16LiteralToUtf8_within {p e : ℕ} (he : e ≤ content.length) :
    ∃ r, utf16LiteralToUtf8 content p e = some r ∧
      ∀ bs m, r = some (bs, m) → p + m ≤ e ∧ ∃ k, m = 2 * k ∧ 0 < k ∧ bs.length ≤ k := by
  unfold utf16LiteralToUtf8
  split_ifs with h1
  · exact ⟨none, rfl, fun bs m h => absurd h (Option.some_ne_none _).symm⟩
  obtain ⟨first, hfirst, hlt⟩ := parseHex4_lt (show p + 2 + 4 ≤ content.length by omega)
  simp only [hfirst, Option.bind_eq_bind, Option.bind_some]
  split_ifs with h2 h3 h4
  · exact ⟨none, rfl, fun bs m h => absurd h (Option.some_ne_none _).symm⟩
  · exact ⟨none, rfl, fun bs m h => absurd h (Option.some_ne_none _).symm⟩
  · obtain ⟨second, hsecond, -⟩ := parseHex4_lt (show p + 6 + 2 + 4 ≤ content.length by omega)
    rw [List.getElem?_eq_getElem (by omega), List.getElem?_eq_getElem (by omega), Option.bind_some, Option.bind_some,
      hsecond, Option.bind_some]
    split_ifs
    · exact ⟨none, rfl, fun bs m h => absurd h (Option.some_ne_none _).symm⟩
    · exact ⟨none, rfl, fun bs m h => absurd h (Option.some_ne_none _).symm⟩
    · exact ⟨none, rfl, fun bs m h => absurd h (Option.some_ne_none _).symm⟩
    · refine ⟨_, rfl, fun bs m h => ?_⟩
      obtain ⟨bs', hbs, heq⟩ := Option.map_eq_some_iff.1 h
      obtain ⟨rfl, rfl⟩ := Prod.mk.inj heq
      exact ⟨by omega, 6, rfl, by decide, (utf8Bytes_length hbs).1.trans (by decide)⟩
  · refine ⟨_, rfl, fun bs m h => ?_⟩
    obtain ⟨bs', hbs, heq⟩ := Option.map_eq_some_iff.1 h
    obtain ⟨rfl, rfl⟩ := Prod.mk.inj heq
    exact ⟨by omega, 3, rfl, by decide, (utf8Bytes_length hbs).2 hlt⟩

/-- The scan ends at a quote within the buffer, and counts the escape sequences in front of it. -/
theorem scanLoop_within (k : ℕ) {n p : ℕ} (hn : content.length < n + p) (hp : p ≤ content.length) :
    ∃ r, scanLoop content n p k = some r ∧ ∀ e k', r = some (e, k') →
      p ≤ e ∧ content[e]? = some (ch '"') ∧ k' = k + escapes false ((content.take e).drop p) := by
  induction n generalizing p k with
  | zero => exact absurd hn (by omega)
  | succ n ih =>
    rw [scanLoop]
    by_cases hend : content.length ≤ p
    · rw [if_pos hend]
      exact ⟨none, rfl, fun e k' h => absurd h (Option.some_ne_none _).symm⟩
    have hlt := not_le.1 hend
    have hdrop {e : ℕ} (he : p < e) : (content.take e).drop p = content[p] :: (content.take e).drop (p + 1) := by
      rw [List.drop_eq_getElem_cons (by rw [List.length_take]; omega), List.getElem_take]
    rw [if_neg hend, List.getElem?_eq_getElem hlt, Option.bind_eq_bind, Option.bind_some]
    by_cases hquote : content[p] = ch '"'
    · rw [if_pos hquote]
      refine ⟨_, rfl, fun e k' h => ?_⟩
      obtain ⟨rfl, rfl⟩ := Prod.mk.inj (Option.some.inj h)
      refine ⟨le_refl _, by rw [List.getElem?_eq_getElem hlt, hquote], ?_⟩
      rw [List.drop_eq_nil_of_le (by rw [List.length_take]; omega)]
      rfl
    rw [if_neg hquote]
    by_cases hback : content[p] = ch '\\'
    · rw [if_pos hback]
      by_cases hlast : content.length ≤ p + 1
      · rw [if_pos hlast]
        exact ⟨none, rfl, fun e k' h => absurd h (Option.some_ne_none _).symm⟩
      obtain ⟨r, hr, hspec⟩ := ih (p := p + 2) (k := k + 1) (by omega) (by omega)
      rw [if_neg hlast]
      refine ⟨r, hr, fun e k' h => ?_⟩
      obtain ⟨hle, hquote', hk⟩ := hspec e k' h
      refine ⟨by omega, hquote', ?_⟩
      rw [hdrop (by omega), escapes, if_pos hback, hk,
        List.drop_eq_getElem_cons (i := p + 1) (by rw [List.length_take]; omega), escapes, Nat.add_assoc,
        Nat.add_comm 1]
    · obtain ⟨r, hr, hspec⟩ := ih (p := p + 1) (k := k) (by omega) (by omega)
      rw [if_neg hback]
      refine ⟨r, hr, fun e k' h => ?_⟩
      obtain ⟨hle, hquote', hk⟩ := hspec e k' h
      exact ⟨by omega, hquote', by rw [hdrop (by omega), escapes, if_neg hback, hk]⟩

/-- What the decoded text at `p` may have: a byte for every byte of the text, but for the escape sequences that
are counted in front of it; they are counted from either phase. -/
def Fits (content : Bytes) (start e skipped p : ℕ) (output : Bytes) : Prop :=
  ∃ q, output.length + skipped + start ≤ p + escapes q ((content.take e).drop p)

/-- An escape sequence of `2 k` bytes stands for at most `k`. -/
theorem Fits.escape {start e skipped p k : ℕ} {output bs : Bytes} (h : Fits content start e skipped p output)
    (hbs : bs.length ≤ k) : Fits content start e skipped (p + 2 * k) (output ++ bs) := by
  obtain ⟨q, hq⟩ := h
  obtain ⟨q', hq'⟩ := escapes_drop k q ((content.take e).drop p)
  rw [List.drop_drop] at hq'
  refine ⟨q', ?_⟩
  rw [List.length_append]
  omega

/-- Another byte stands for itself. -/
theorem Fits.byte {start e skipped p : ℕ} {output : Bytes} {b : U8} (h : Fits content start e skipped p output)
    (hp : content[p]? = some b) (hb : b ≠ ch '\\') : Fits content start e skipped (p + 1) (output ++ [b]) := by
  obtain ⟨q, hq⟩ := h
  have hhead (c : U8) (hc : ((content.take e).drop p).head? = some c) : c ≠ ch '\\' := by
    rw [List.head?_drop, List.getElem?_take] at hc
    split_ifs at hc
    rw [hp] at hc
    exact Option.some.inj hc ▸ hb
  obtain ⟨q', hq'⟩ := escapes_tail q hhead
  rw [List.drop_drop] at hq'
  refine ⟨q', ?_⟩
  rw [List.length_append, List.length_singleton]
  omega

/-- There is room for it, and for a NUL. -/
theorem Fits.length_lt {start e skipped p size : ℕ} {output : Bytes} (h : Fits content start e skipped p output)
    (hp : p ≤ e + 1) (hsize : e + 2 ≤ size + skipped + start) : output.length < size := by
  obtain ⟨q, hq⟩ := h
  have hle := escapes_le q ((content.take e).drop p)
  rw [List.length_drop, List.length_take] at hle
  omega

theorem put_of_length_le {size : ℕ} {output bs : Bytes} (h : (output ++ bs).length ≤ size) :
    put size output bs = some (output ++ bs) := by
  rw [List.length_append] at h
  exact if_pos h

section Decode

variable {start e size skipped n p : ℕ} {output : Bytes}

/-- A byte that is no backslash is copied. -/
theorem decodeLoop_byte (hsize : e + 2 ≤ size + skipped + start) (hp : p < e)
    (hfits : Fits content start e skipped p output) {b : U8} (h : content[p]? = some b) (hb : b ≠ ch '\\') :
    Fits content start e skipped (p + 1) (output ++ [b]) ∧
      decodeLoop content e size (n + 1) p output = decodeLoop content e size n (p + 1) (output ++ [b]) := by
  have hfits' := hfits.byte h hb
  refine ⟨hfits', ?_⟩
  simp only [decodeLoop, if_neg (not_le.2 hp), h, Option.bind_eq_bind, Option.bind_some, if_pos hb,
    put_of_length_le (hfits'.length_lt (by omega) hsize).le]

/-- An escape sequence of two bytes is replaced. -/
theorem decodeLoop_escaped (hsize : e + 2 ≤ size + skipped + start) (hp : p < e)
    (hfits : Fits content start e skipped p output) {b d : U8} (h : content[p]? = some (ch '\\'))
    (hb : content[p + 1]? = some b) (hd : escaped b = some d) :
    Fits content start e skipped (p + 2) (output ++ [d]) ∧
      decodeLoop content e size (n + 1) p output = decodeLoop content e size n (p + 2) (output ++ [d]) := by
  have hfits' : Fits content start e skipped (p + 2) (output ++ [d]) := hfits.escape (k := 1) (le_refl 1)
  refine ⟨hfits', ?_⟩
  simp only [decodeLoop, if_neg (not_le.2 hp), h, hb, hd, Option.bind_eq_bind, Option.bind_some, ne_eq,
    not_true_eq_false, if_false, if_neg (show ¬ e - p < 1 by omega),
    put_of_length_le (hfits'.length_lt (by omega) hsize).le]

/-- A code is replaced by its bytes. -/
theorem decodeLoop_code (hsize : e + 2 ≤ size + skipped + start) (hp : p < e)
    (hfits : Fits content start e skipped p output) (h : content[p]? = some (ch '\\'))
    (hu : content[p + 1]? = some (ch 'u')) {bs : Bytes} {m k : ℕ}
    (hcode : utf16LiteralToUtf8 content p e = some (some (bs, m))) (hm : m = 2 * k) (hk : p + m ≤ e)
    (hbs : bs.length ≤ k) :
    Fits content start e skipped (p + m) (output ++ bs) ∧
      decodeLoop content e size (n + 1) p output = decodeLoop content e size n (p + m) (output ++ bs) := by
  have hfits' : Fits content start e skipped (p + m) (output ++ bs) := hm ▸ hfits.escape hbs
  refine ⟨hfits', ?_⟩
  have hesc : escaped (ch 'u') = none := by decide
  simp only [decodeLoop, if_neg (not_le.2 hp), h, hu, hesc, hcode, Option.bind_eq_bind, Option.bind_some, ne_eq,
    not_true_eq_false, if_false, if_true, if_neg (show ¬ e - p < 1 by omega),
    put_of_length_le (hfits'.length_lt (by omega) hsize).le]

/-- At the end, there is room for the NUL. -/
theorem decodeLoop_end (hsize : e + 2 ≤ size + skipped + start) (hp : e ≤ p) (hle : p ≤ e + 1)
    (hfits : Fits content start e skipped p output) :
    decodeLoop content e size (n + 1) p output = some (.yes output (e + 1)) := by
  have hroom : (output ++ [0]).length ≤ size := by
    rw [List.length_append]
    exact hfits.length_lt hle hsize
  rw [decodeLoop, if_pos hp, put_of_length_le hroom]
  rfl

/-- **Decoding stays in its buffers**: it reads up to the closing quote, and what it writes fits. -/
theorem decodeLoop_within (he : e < content.length) (hsize : e + 2 ≤ size + skipped + start) (hn : e + 1 < n + p)
    (hp : p ≤ e + 1) (hfits : Fits content start e skipped p output) :
    ∃ r, decodeLoop content e size n p output = some r ∧
      ((∃ bs, r = .yes bs (e + 1)) ∨ ∃ q, r = .no q ∧ q ≤ e) := by
  induction n generalizing p output with
  | zero => exact absurd hn (by omega)
  | succ n ih =>
    rcases Nat.lt_or_ge p e with hlt | hge
    · have hget : content[p]? = some content[p] := List.getElem?_eq_getElem (by omega)
      have hnext : content[p + 1]? = some content[p + 1] := List.getElem?_eq_getElem (by omega)
      by_cases hback : content[p] = ch '\\'
      · rw [hback] at hget
        cases hesc : escaped content[p + 1] with
        | some d =>
          obtain ⟨hfits', hstep⟩ := decodeLoop_escaped (n := n) hsize hlt hfits hget hnext hesc
          exact hstep ▸ ih (by omega) (by omega) hfits'
        | none =>
          obtain ⟨r, hr, hspec⟩ := utf16LiteralToUtf8_within (p := p) he.le
          rcases r with _ | ⟨bs, m⟩
          · refine ⟨.no p, ?_, .inr ⟨p, rfl, hlt.le⟩⟩
            simp only [decodeLoop, if_neg (not_le.2 hlt), hget, hnext, hesc, hr, Option.bind_eq_bind, Option.bind_some,
              ne_eq, not_true_eq_false, if_false, if_neg (show ¬ e - p < 1 by omega), ite_self]
          · by_cases hu : content[p + 1] = ch 'u'
            · obtain ⟨hle, k, hm, hk, hbs⟩ := hspec bs m rfl
              obtain ⟨hfits', hstep⟩ :=
                decodeLoop_code (n := n) hsize hlt hfits hget (hu ▸ hnext) hr hm hle hbs
              exact hstep ▸ ih (by omega) (by omega) hfits'
            · refine ⟨.no p, ?_, .inr ⟨p, rfl, hlt.le⟩⟩
              simp only [decodeLoop, if_neg (not_le.2 hlt), hget, hnext, hesc, Option.bind_eq_bind, Option.bind_some,
                ne_eq, not_true_eq_false, if_false, if_neg (show ¬ e - p < 1 by omega), if_neg hu]
      · obtain ⟨hfits', hstep⟩ := decodeLoop_byte (n := n) hsize hlt hfits hget hback
        exact hstep ▸ ih (by omega) (by omega) hfits'
    · exact ⟨_, decodeLoop_end hsize hge hp hfits, .inl ⟨output, rfl⟩⟩

end Decode

theorem parseString_within {offset : ℕ} (h : offset < content.length) :
    EndsWithin content.length offset (fun _ => True) (parseString content offset) := by
  unfold parseString
  rw [List.getElem?_eq_getElem h, Option.bind_eq_bind, Option.bind_some]
  by_cases hquote : content[offset] = ch '"'
  · rw [if_neg (not_not.2 hquote)]
    have hn : content.length < content.length + 1 + (offset + 1) := by omega
    obtain ⟨r, hr, hscan⟩ := scanLoop_within 0 hn (Nat.succ_le_of_lt h)
    rw [hr]
    cases r with
    | none => exact ⟨_, rfl, Nat.succ_le_of_lt h⟩
    | some r =>
      obtain ⟨hle, hend, hskipped⟩ := hscan r.1 r.2 rfl
      have he := (List.getElem?_eq_some_iff.1 hend).1
      have hcount := escapes_le false ((content.take r.1).drop (offset + 1))
      rw [List.length_drop, List.length_take] at hcount
      have hfits : Fits content (offset + 1) r.1 r.2 (offset + 1) [] := ⟨false, by rw [List.length_nil]; omega⟩
      have hsize : r.1 + 2 ≤ (r.1 - offset - r.2 + 1) + r.2 + (offset + 1) := by omega
      obtain ⟨r', hr', hdecode⟩ := decodeLoop_within (n := content.length + 1) he hsize (by omega) (by omega) hfits
      simp only [Option.bind_eq_bind, Option.bind_some, hr']
      rcases hdecode with ⟨bs, rfl⟩ | ⟨q, rfl, hq⟩
      · exact ⟨_, rfl, trivial, by omega, he⟩
      · exact ⟨_, rfl, hq.trans he.le⟩
  · rw [if_pos hquote]
    exact ⟨_, rfl, Nat.succ_le_of_lt h⟩

/-! ## Values -/

mutual

/-- How deeply arrays and objects are nested in a tree. -/
def CNode.depth : CNode → ℕ
  | .arr child => depthItems child + 1
  | .obj child => depthMembers child + 1
  | _ => 0

/-- The deepest of the items of an array. -/
def CNode.depthItems : List CNode → ℕ
  | [] => 0
  | a :: as => max a.depth (depthItems as)

/-- The deepest of the members of an object. -/
def CNode.depthMembers : List (Bytes × CNode) → ℕ
  | [] => 0
  | (_, a) :: as => max a.depth (depthMembers as)

end

theorem CNode.depthItems_le {n : ℕ} {child : List CNode} (h : ∀ a ∈ child, a.depth ≤ n) : depthItems child ≤ n := by
  induction child with
  | nil => exact Nat.zero_le n
  | cons a as ih =>
    exact max_le (h a List.mem_cons_self) (ih fun b hb => h b (List.mem_cons_of_mem a hb))

theorem CNode.depthMembers_le {n : ℕ} {child : List (Bytes × CNode)} (h : ∀ m ∈ child, m.2.depth ≤ n) :
    depthMembers child ≤ n := by
  induction child with
  | nil => exact Nat.zero_le n
  | cons m ms ih =>
    exact max_le (h m List.mem_cons_self) (ih fun b hb => h b (List.mem_cons_of_mem m hb))

theorem parseNumber_within {offset : ℕ} (n : ℕ) (h : offset ≤ content.length) :
    EndsWithin content.length offset (fun a => a.depth ≤ n) (parseNumber content offset) := by
  rw [parseNumber]
  have hcopied : (((content.drop offset).take 63).takeWhile numberChar).length ≤ content.length - offset :=
    calc _ ≤ ((content.drop offset).take 63).length := (List.takeWhile_prefix _).length_le
      _ ≤ (content.drop offset).length := (List.take_prefix _ _).length_le
      _ = content.length - offset := List.length_drop
  cases hnum : strtod (((content.drop offset).take 63).takeWhile numberChar) with
  | none => exact ⟨_, rfl, h⟩
  | some r =>
    obtain ⟨hpos, hle⟩ := strtod_consumed hnum
    exact ⟨_, rfl, Nat.zero_le n, by omega, by omega⟩

variable {α : Type} {P : α → Prop} {item : ℕ → Option (Parsed α)} {last : U8}

/-- The end of the buffer is a NUL. -/
def NulAtEnd (content : Bytes) : Prop := content[content.length - 1]? = some 0

theorem NulAtEnd.ne_nil (hnul : NulAtEnd content) : content ≠ [] := by
  rintro rfl
  exact absurd hnul (Option.some_ne_none _).symm

/-- Another byte is in front of the end. -/
theorem NulAtEnd.lt (hnul : NulAtEnd content) {offset : ℕ} {b : U8} (h : content[offset]? = some b) (hb : b ≠ 0) :
    offset + 1 < content.length := by
  obtain ⟨hlt, hget⟩ := List.getElem?_eq_some_iff.1 h
  rcases Nat.lt_or_ge (offset + 1) content.length with hlt' | hge
  · exact hlt'
  · obtain rfl : offset = content.length - 1 := by omega
    exact absurd (Option.some.inj (h.symm.trans hnul)) hb

/-- Each round gets further, so there are not more than bytes. -/
theorem childLoop_within (hnul : NulAtEnd content)
    (hitem : ∀ offset < content.length, EndsWithin content.length offset P (item offset)) {n offset start : ℕ}
    {head : List α} (hn : content.length ≤ n + offset) (hoffset : offset + 1 < content.length) (hstart : start ≤ offset)
    (hhead : ∀ a ∈ head, P a) :
    EndsWithin content.length start (fun as => ∀ a ∈ as, P a) (childLoop content item last n offset head) := by
  induction n generalizing offset head with
  | zero => exact absurd hn (by omega)
  | succ n ih =>
    rw [childLoop]
    obtain ⟨r, hr, hwithin⟩ := hitem _ (bufferSkipWhitespace_lt hoffset.le hnul.ne_nil)
    rw [hr]
    refine hwithin.andThen fun a after ha hafter hle => ?_
    have hskip := le_bufferSkipWhitespace hoffset
    have hback := bufferSkipWhitespace_le content after
    have hlt := bufferSkipWhitespace_lt hle hnul.ne_nil
    have hmem : ∀ b ∈ head ++ [a], P b := fun b hb => (List.mem_append.1 hb).elim (hhead b) fun hb =>
      List.mem_singleton.1 hb ▸ ha
    simp only
    split_ifs with hcomma hlast
    · exact ih (by omega) (hnul.lt hcomma (by decide)) (by omega) hmem
    · exact ⟨_, rfl, hmem, by omega, hlt⟩
    · exact ⟨_, rfl, hlt.le⟩

theorem parseChildren_within (last : U8) (hnul : NulAtEnd content)
    (hitem : ∀ offset < content.length, EndsWithin content.length offset P (item offset)) {offset : ℕ}
    (h : offset + 1 < content.length) :
    EndsWithin content.length offset (fun as => ∀ a ∈ as, P a) (parseChildren content item last offset) := by
  have hlt := bufferSkipWhitespace_lt h.le hnul.ne_nil
  have hle := le_bufferSkipWhitespace h
  unfold parseChildren
  simp only
  split_ifs with hlast hend
  · exact ⟨_, rfl, List.forall_mem_nil _, by omega, hlt⟩
  · exact ⟨_, rfl, (Nat.sub_le _ _).trans hlt.le⟩
  · exact childLoop_within hnul hitem (by omega) (by omega) (by omega) (List.forall_mem_nil _)

section Step

variable {room : ℕ} {value : ℕ → Option (Parsed CNode)}

theorem parseArray_within (hnul : NulAtEnd content)
    (hvalue : ∀ offset < content.length, EndsWithin content.length offset (fun a => a.depth ≤ room) (value offset))
    {offset : ℕ} (h : offset < content.length) :
    EndsWithin content.length offset (fun a => a.depth ≤ room + 1) (parseArray content value offset) := by
  unfold parseArray
  rw [List.getElem?_eq_getElem h, Option.bind_eq_bind, Option.bind_some]
  split_ifs with hopen
  · exact ⟨_, rfl, h.le⟩
  · have hlt := hnul.lt ((List.getElem?_eq_getElem h).trans (congrArg some (not_not.1 hopen))) (by decide)
    obtain ⟨r, hr, hwithin⟩ := parseChildren_within (ch ']') hnul hvalue hlt
    rw [hr]
    exact hwithin.andThen fun child after hchild hafter hle =>
      ⟨_, rfl, Nat.succ_le_succ (CNode.depthItems_le hchild), hafter, hle⟩

theorem parseMember_within (hnul : NulAtEnd content)
    (hvalue : ∀ offset < content.length, EndsWithin content.length offset (fun a => a.depth ≤ room) (value offset))
    {offset : ℕ} (h : offset < content.length) :
    EndsWithin content.length offset (fun m => m.2.depth ≤ room) (parseMember content value offset) := by
  unfold parseMember
  obtain ⟨r, hr, hname⟩ := parseString_within h
  rw [hr]
  refine hname.andThen fun name after _ hafter hle => ?_
  have hback := bufferSkipWhitespace_le content after
  have hlt := bufferSkipWhitespace_lt hle hnul.ne_nil
  simp only
  split_ifs with hcolon
  · exact ⟨_, rfl, hlt.le⟩
  · have hcolon' := hnul.lt (not_not.1 hcolon) (by decide)
    have hskip := le_bufferSkipWhitespace hcolon'
    obtain ⟨r', hr', hwithin⟩ := hvalue _ (bufferSkipWhitespace_lt hcolon'.le hnul.ne_nil)
    rw [hr']
    exact hwithin.andThen fun a after' ha hafter' hle' => ⟨_, rfl, ha, by omega, hle'⟩

theorem parseObject_within (hnul : NulAtEnd content)
    (hvalue : ∀ offset < content.length, EndsWithin content.length offset (fun a => a.depth ≤ room) (value offset))
    {offset : ℕ} (h : offset < content.length) :
    EndsWithin content.length offset (fun a => a.depth ≤ room + 1) (parseObject content value offset) := by
  unfold parseObject
  split_ifs with hopen
  · exact ⟨_, rfl, h.le⟩
  · obtain ⟨r, hr, hwithin⟩ := parseChildren_within (ch '}') hnul
      (fun _ => parseMember_within hnul hvalue) (hnul.lt (not_not.1 hopen) (by decide))
    rw [hr]
    exact hwithin.andThen fun child after hchild hafter hle =>
      ⟨_, rfl, Nat.succ_le_succ (CNode.depthMembers_le hchild), hafter, hle⟩

/-- A word that is in front at `offset`, and ends within the buffer. -/
theorem within_of_isPrefixOf {word : Bytes} {offset : ℕ} (h : word.isPrefixOf (content.drop offset) = true)
    (hoffset : offset < content.length) : offset + word.length ≤ content.length := by
  have hle := (List.isPrefixOf_iff_prefix.1 h).length_le
  rw [List.length_drop] at hle
  omega

theorem parseValueWith_within {n : ℕ} {array object : ℕ → Option (Parsed CNode)}
    (harray : ∀ offset < content.length, EndsWithin content.length offset (fun a => a.depth ≤ n) (array offset))
    (hobject : ∀ offset < content.length, EndsWithin content.length offset (fun a => a.depth ≤ n) (object offset))
    {offset : ℕ} (h : offset < content.length) :
    EndsWithin content.length offset (fun a => a.depth ≤ n) (parseValueWith content array object offset) := by
  unfold parseValueWith
  split_ifs with hnull hfalse htrue
  · exact ⟨_, rfl, Nat.zero_le n, by omega, within_of_isPrefixOf hnull h⟩
  · exact ⟨_, rfl, Nat.zero_le n, by omega, within_of_isPrefixOf hfalse h⟩
  · exact ⟨_, rfl, Nat.zero_le n, by omega, within_of_isPrefixOf htrue h⟩
  rw [List.getElem?_eq_getElem h]
  simp only
  split_ifs
  · obtain ⟨r, hr, hwithin⟩ := parseString_within h
    rw [hr]
    exact hwithin.andThen fun valuestring after _ hafter hle => ⟨_, rfl, Nat.zero_le n, hafter, hle⟩
  · exact parseNumber_within n h.le
  · exact harray offset h
  · exact hobject offset h
  · exact ⟨_, rfl, h.le⟩

end Step

/-- **A value is parsed within the buffer**, and is nested no deeper than there is room. -/
theorem parseValue_within (hnul : NulAtEnd content) (room : ℕ) :
    ∀ offset < content.length,
      EndsWithin content.length offset (fun a => a.depth ≤ room) (parseValue content room offset) := by
  induction room with
  | zero =>
    have hstop : ∀ offset < content.length, EndsWithin content.length offset (fun a : CNode => a.depth ≤ 0)
        (some (.no offset)) := fun offset h => ⟨_, rfl, h.le⟩
    exact fun offset => parseValueWith_within hstop hstop
  | succ room ih =>
    exact fun offset => parseValueWith_within (fun _ => parseArray_within hnul ih) fun _ => parseObject_within hnul ih

end Content

theorem nulAtEnd_append (value : Bytes) : NulAtEnd (value ++ [0]) := by
  rw [NulAtEnd, List.length_append, List.length_singleton, Nat.add_sub_cancel, List.getElem?_concat_length]

/-- **Every string is parsed safely**: `cJSON_Parse` returns, within its buffers. A tree is nested no deeper than the
limit, and an error points into the string or to its NUL. -/
theorem cJsonParse_safe (value : Bytes) : ∃ r, cJsonParse value = some r ∧
    (∀ item, r = .ok item → item.depth ≤ cJsonNestingLimit) ∧
    ∀ position, r = .error position → position ≤ (cString value).length := by
  have hlen : (cString value ++ [0]).length = (cString value).length + 1 := List.length_append
  have hnul := nulAtEnd_append (cString value)
  have hbom : skipUtf8Bom (cString value ++ [0]) ≤ (cString value ++ [0]).length := by
    rw [skipUtf8Bom]
    split_ifs with h
    · omega
    · exact Nat.zero_le _
  obtain ⟨r, hr, hwithin⟩ := parseValue_within hnul cJsonNestingLimit _ (bufferSkipWhitespace_lt hbom hnul.ne_nil)
  unfold cJsonParse
  simp only [hr, Option.bind_eq_bind, Option.bind_some]
  cases r with
  | yes item offset =>
    refine ⟨_, rfl, fun a h => ?_, fun position h => ?_⟩
    · exact Except.ok.inj h ▸ hwithin.1
    · exact absurd h (by simp)
  | no offset =>
    refine ⟨_, rfl, fun a h => absurd h (by simp), fun position h => ?_⟩
    rw [← Except.error.inj h, hlen]
    split_ifs <;> omega

end ArionDp
