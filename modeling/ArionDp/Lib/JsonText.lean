import ArionDp.Lib.Json
import ArionDp.Lib.PyText

/-!
# JSON trees as texts

`json.dumps` of a tree with integers: items behind `", "`, values behind `": "`, and all but the printable ASCII
characters as code units of UTF-16 in hexadecimal.

* `escapeChar`, `quote`, `dumps`;
* **`induction`**: induction on trees;
* `chars`, **`forall_mem_dumps`**: where the characters of a text come from;
* **`printable_dumps`**: a text is printable ASCII.
-/

namespace JsonText

/-- Facts about the characters of a text are decided along the text, not along all characters. -/
scoped instance (priority := high) decidableForallMem {α : Type} (l : List α) (P : α → Prop) [DecidablePred P] :
    Decidable (∀ a ∈ l, P a) := List.decidableBAll P l

open PyText

/-- `'\\u{0:04x}'.format(n)` -/
def codeUnit (n : ℕ) : List Char := '\\' :: 'u' :: hexFixed 4 n

/-- `ESCAPE_DCT`: the escape sequences of two characters, by what is behind the backslash -/
def escapeDct : List (Char × Char) :=
  [('\\', '\\'), ('"', '"'), (Char.ofNat 8, 'b'), (Char.ofNat 12, 'f'), ('\n', 'n'), ('\r', 'r'), ('\t', 't')]

/-- A character in a string. -/
def escapeChar (c : Char) : List Char :=
  match escapeDct.find? fun x => x.1 = c with
  | some x => ['\\', x.2]
  | none =>
    if ' ' ≤ c ∧ c ≤ '~' then [c]
    else if c.toNat < 0x10000 then codeUnit c.toNat
    else codeUnit (0xD800 ||| (((c.toNat - 0x10000) >>> 10) &&& 0x3FF)) ++
      codeUnit (0xDC00 ||| ((c.toNat - 0x10000) &&& 0x3FF))

/-- A string in quotes. -/
def quote (s : List Char) : List Char := '"' :: (s.flatMap escapeChar ++ ['"'])

mutual

/-- `json.dumps` -/
def dumps : Json ℤ → List Char
  | .null => "null".toList
  | .bool true => "true".toList
  | .bool false => "false".toList
  | .num n => pyStr n
  | .str s => quote s
  | .arr [] => "[]".toList
  | .arr (j :: js) => '[' :: (dumps j ++ (dumpsItems js ++ [']']))
  | .obj [] => "{}".toList
  | .obj ((k, j) :: fs) => '{' :: (quote k ++ (':' :: ' ' :: (dumps j ++ (dumpsFields fs ++ ['}']))))

/-- The items behind the first one. -/
def dumpsItems : List (Json ℤ) → List Char
  | [] => []
  | j :: js => ',' :: ' ' :: (dumps j ++ dumpsItems js)

/-- The fields behind the first one. -/
def dumpsFields : List (List Char × Json ℤ) → List Char
  | [] => []
  | (k, j) :: fs => ',' :: ' ' :: (quote k ++ (':' :: ' ' :: (dumps j ++ dumpsFields fs)))

end

@[simp] theorem length_codeUnit (n : ℕ) : (codeUnit n).length = 6 := by simp [codeUnit, hexFixed]

theorem escapeChar_length_pos (c : Char) : 0 < (escapeChar c).length := by
  unfold escapeChar
  cases escapeDct.find? fun x => x.1 = c with
  | some x => exact Nat.succ_pos _
  | none =>
    simp only
    split_ifs
    · exact Nat.succ_pos _
    · exact Nat.succ_pos _
    · exact Nat.succ_pos _

/-- A string is not shorter in quotes. -/
theorem length_le_flatMap_escapeChar (s : List Char) : s.length ≤ (s.flatMap escapeChar).length := by
  induction s with
  | nil => exact le_refl 0
  | cons c s ih =>
    have hpos := escapeChar_length_pos c
    rw [List.flatMap_cons, List.length_append, List.length_cons]
    omega

theorem dumpsItems_eq (js : List (Json ℤ)) : dumpsItems js = js.flatMap fun j => ',' :: ' ' :: dumps j := by
  induction js with
  | nil => rfl
  | cons j js ih => rw [dumpsItems, ih, List.flatMap_cons, List.cons_append, List.cons_append]

/-- A field of an object. -/
def dumpsField (f : List Char × Json ℤ) : List Char := quote f.1 ++ (':' :: ' ' :: dumps f.2)

theorem dumpsFields_eq (fs : List (List Char × Json ℤ)) :
    dumpsFields fs = fs.flatMap fun f => ',' :: ' ' :: dumpsField f := by
  induction fs with
  | nil => rfl
  | cons f fs ih =>
    rw [dumpsFields, ih, List.flatMap_cons, dumpsField]
    simp only [List.cons_append, List.append_assoc]

/-- **Induction on a tree**, with a hypothesis for each item and each field. -/
theorem induction {ν : Type} {P : Json ν → Prop} (null : P .null) (bool : ∀ b, P (.bool b)) (num : ∀ n, P (.num n))
    (str : ∀ s, P (.str s)) (arr : ∀ js, (∀ j ∈ js, P j) → P (.arr js))
    (obj : ∀ fs, (∀ f ∈ fs, P f.2) → P (.obj fs)) (j : Json ν) : P j := by
  refine @Json.rec ν P (fun js => ∀ j ∈ js, P j) (fun fs => ∀ f ∈ fs, P f.2) (fun f => P f.2) null bool num str arr obj
    (List.forall_mem_nil _) ?_ (List.forall_mem_nil _) ?_ ?_ j
  · exact fun _ _ hj hjs => List.forall_mem_cons.2 ⟨hj, hjs⟩
  · exact fun _ _ hf hfs => List.forall_mem_cons.2 ⟨hf, hfs⟩
  · exact fun _ _ hj => hj

/-! ## The characters of a text -/

mutual

/-- The characters of the strings and names of a tree. -/
def chars {ν : Type} : Json ν → List Char
  | .str s => s
  | .arr js => charsItems js
  | .obj fs => charsFields fs
  | _ => []

/-- The characters of the items of an array. -/
def charsItems {ν : Type} : List (Json ν) → List Char
  | [] => []
  | j :: js => chars j ++ charsItems js

/-- The characters of the fields of an object. -/
def charsFields {ν : Type} : List (List Char × Json ν) → List Char
  | [] => []
  | (k, j) :: fs => k ++ (chars j ++ charsFields fs)

end

/-- The characters of a text that come from no string. -/
def syntaxChars : List Char := "0123456789-[]{}:, nultrefas\"".toList

section Chars

variable {P : Char → Prop}

theorem forall_mem_pyStr (h : ∀ c ∈ syntaxChars, P c) (n : ℤ) : ∀ c ∈ pyStr n, P c := by
  have hdigit : ∀ k : ℕ, k < 10 → Nat.digitChar k ∈ syntaxChars := by decide
  have hdigits (m : ℕ) : ∀ c ∈ Nat.toDigits 10 m, P c := by
    induction m using Nat.strong_induction_on with
    | _ m ih =>
      rw [Nat.toDigits_eq_if (by decide)]
      split_ifs with hm
      · exact List.forall_mem_singleton.2 (h _ (hdigit m hm))
      · exact List.forall_mem_append.2 ⟨ih (m / 10) (by omega),
          List.forall_mem_singleton.2 (h _ (hdigit _ (Nat.mod_lt m (by decide))))⟩
  cases n with
  | ofNat n => exact hdigits n
  | negSucc n => exact List.forall_mem_cons.2 ⟨h _ (by decide), hdigits (n + 1)⟩

theorem forall_mem_quote (h : ∀ c ∈ syntaxChars, P c) {s : List Char} (hs : ∀ c ∈ s, ∀ d ∈ escapeChar c, P d) :
    ∀ c ∈ quote s, P c := by
  refine List.forall_mem_cons.2 ⟨h _ (by decide), List.forall_mem_append.2 ⟨fun c hc => ?_,
    List.forall_mem_singleton.2 (h _ (by decide))⟩⟩
  obtain ⟨d, hd, hcd⟩ := List.mem_flatMap.1 hc
  exact hs d hd c hcd

mutual

/-- **The characters of a text** come from its strings, or are the ones of its syntax. -/
theorem forall_mem_dumps (h : ∀ c ∈ syntaxChars, P c) :
    ∀ j : Json ℤ, (∀ c ∈ chars j, ∀ d ∈ escapeChar c, P d) → ∀ c ∈ dumps j, P c
  | .null, _ => fun c hc => h c ((by decide : ∀ c ∈ "null".toList, c ∈ syntaxChars) c hc)
  | .bool true, _ => fun c hc => h c ((by decide : ∀ c ∈ "true".toList, c ∈ syntaxChars) c hc)
  | .bool false, _ => fun c hc => h c ((by decide : ∀ c ∈ "false".toList, c ∈ syntaxChars) c hc)
  | .num n, _ => forall_mem_pyStr h n
  | .str _, hs => forall_mem_quote h hs
  | .arr [], _ => fun c hc => h c ((by decide : ∀ c ∈ "[]".toList, c ∈ syntaxChars) c hc)
  | .arr (j :: js), hs => List.forall_mem_cons.2 ⟨h _ (by decide), List.forall_mem_append.2
      ⟨forall_mem_dumps h j (List.forall_mem_append.1 hs).1, List.forall_mem_append.2
        ⟨forall_mem_dumpsItems h js (List.forall_mem_append.1 hs).2, List.forall_mem_singleton.2 (h _ (by decide))⟩⟩⟩
  | .obj [], _ => fun c hc => h c ((by decide : ∀ c ∈ "{}".toList, c ∈ syntaxChars) c hc)
  | .obj ((k, j) :: fs), hs => by
    obtain ⟨hk, hs⟩ := List.forall_mem_append.1 hs
    obtain ⟨hj, hfs⟩ := List.forall_mem_append.1 hs
    rw [dumps]
    simp only [List.forall_mem_cons, List.forall_mem_append]
    exact ⟨h _ (by decide), forall_mem_quote h hk, h _ (by decide), h _ (by decide), forall_mem_dumps h j hj,
      forall_mem_dumpsFields h fs hfs, h _ (by decide), List.forall_mem_nil _⟩

theorem forall_mem_dumpsItems (h : ∀ c ∈ syntaxChars, P c) :
    ∀ js : List (Json ℤ), (∀ c ∈ charsItems js, ∀ d ∈ escapeChar c, P d) → ∀ c ∈ dumpsItems js, P c
  | [], _ => List.forall_mem_nil _
  | j :: js, hs => by
    obtain ⟨hj, hjs⟩ := List.forall_mem_append.1 hs
    rw [dumpsItems]
    simp only [List.forall_mem_cons, List.forall_mem_append]
    exact ⟨h _ (by decide), h _ (by decide), forall_mem_dumps h j hj, forall_mem_dumpsItems h js hjs⟩

theorem forall_mem_dumpsFields (h : ∀ c ∈ syntaxChars, P c) :
    ∀ fs : List (List Char × Json ℤ), (∀ c ∈ charsFields fs, ∀ d ∈ escapeChar c, P d) → ∀ c ∈ dumpsFields fs, P c
  | [], _ => List.forall_mem_nil _
  | (k, j) :: fs, hs => by
    obtain ⟨hk, hs⟩ := List.forall_mem_append.1 hs
    obtain ⟨hj, hfs⟩ := List.forall_mem_append.1 hs
    rw [dumpsFields]
    simp only [List.forall_mem_cons, List.forall_mem_append]
    exact ⟨h _ (by decide), h _ (by decide), forall_mem_quote h hk, h _ (by decide), h _ (by decide),
      forall_mem_dumps h j hj, forall_mem_dumpsFields h fs hfs⟩

end

/-! ## Escapes -/

/-- Printable ASCII -/
def Printable (c : Char) : Prop := ' ' ≤ c ∧ c ≤ '~'

instance (c : Char) : Decidable (Printable c) := inferInstanceAs (Decidable (_ ∧ _))

/-- The characters of an escape sequence. -/
def escapeSyntax : List Char := "\\u0123456789abcdef\"bfnrt".toList

theorem forall_mem_codeUnit (h : ∀ c ∈ escapeSyntax, P c) (n : ℕ) : ∀ c ∈ codeUnit n, P c := by
  have hdigit : ∀ k < 16, Nat.digitChar k ∈ escapeSyntax := by decide
  have hdigits (w m : ℕ) : ∀ c ∈ hexFixed w m, P c := by
    induction w generalizing m with
    | zero => exact List.forall_mem_nil _
    | succ w ih =>
      exact List.forall_mem_append.2 ⟨ih _, List.forall_mem_singleton.2
        (h _ (hdigit _ (Nat.mod_lt m (by decide))))⟩
  exact List.forall_mem_cons.2 ⟨h _ (by decide), List.forall_mem_cons.2 ⟨h _ (by decide), hdigits 4 n⟩⟩

/-- A character stands for itself, or is escaped. -/
theorem forall_mem_escapeChar (h : ∀ c ∈ escapeSyntax, P c) {c : Char} (hc : Printable c → P c) :
    ∀ d ∈ escapeChar c, P d := by
  unfold escapeChar
  cases hfind : escapeDct.find? fun x => x.1 = c with
  | some x =>
    have hx : ∀ x ∈ escapeDct, ∀ d ∈ ['\\', x.2], d ∈ escapeSyntax := by decide
    exact fun d hd => h d (hx x (List.mem_of_find?_eq_some hfind) d hd)
  | none =>
    simp only
    split_ifs with hprint hunit
    · exact List.forall_mem_singleton.2 (hc hprint)
    · exact forall_mem_codeUnit h _
    · exact List.forall_mem_append.2 ⟨forall_mem_codeUnit h _, forall_mem_codeUnit h _⟩

end Chars

/-- **A text is printable ASCII.** -/
theorem printable_dumps (j : Json ℤ) : ∀ c ∈ dumps j, Printable c :=
  forall_mem_dumps (by decide) j fun _ _ => forall_mem_escapeChar (by decide) id

/-- **A single quote** in a text is one in a string. -/
theorem notMem_dumps {j : Json ℤ} (h : '\'' ∉ chars j) : '\'' ∉ dumps j := by
  have hall : ∀ c ∈ dumps j, c ≠ '\'' :=
    forall_mem_dumps (by decide) j fun c hc => forall_mem_escapeChar (by decide) fun _ hq => h (hq ▸ hc)
  exact fun hq => hall _ hq rfl

end JsonText
