import ArionDp.Cli.CJsonTrees
import ArionDp.Cli.ReadConf
import ArionDp.Manager.Endpoint

/-!
# Configurations in text

A subcommand reads its configuration from a text; what it looks at are the strings, character by character, and the
doubles of the tree.

* `CNode.view`, **`view_encode`**: a tree as the subcommands see it, in ASCII;
* `JsonNumber.double`: the numbers that `strtod` reads;
* `Plain`: the trees that are read as they were written;
* `confSubcmd`, **`confSubcmd_dumps`**: a subcommand with the text of a tree behind `-j`.
-/

namespace ArionDp

open Wire Strtod JsonText PyText

/-- The characters of a C string. -/
def charsOf (s : Bytes) : List Char := s.map fun b => Char.ofNat b.toNat

mutual

/-- A tree as the subcommands see it; an infinite number has no cast to an integer. -/
def CNode.view : CNode → Option CJson
  | .null => some .null
  | .bool b => some (.bool b)
  | .num (.fin q) => some (.num q)
  | .num (.inf _) => none
  | .str s => some (.str (charsOf s))
  | .arr child => (viewItems child).map .arr
  | .obj child => (viewMembers child).map .obj

/-- The items of an array. -/
def CNode.viewItems : List CNode → Option (List CJson)
  | [] => some []
  | a :: as => do return (← a.view) :: (← viewItems as)

/-- The members of an object. -/
def CNode.viewMembers : List (Bytes × CNode) → Option (List (List Char × CJson))
  | [] => some []
  | (k, a) :: as => do return (charsOf k, ← a.view) :: (← viewMembers as)

end

/-- The number that is read of an integer. -/
def readDouble (n : ℤ) : ℚ :=
  match Double.round n with
  | .fin q => q
  | .inf _ => 0

/-- Numbers as `strtod` reads them. -/
def JsonNumber.double : JsonNumber where
  read := readDouble
  exact n hn := by
    rw [readDouble, round_intCast (by rw [Nat.abs_cast]; exact_mod_cast hn)]
    exact Int.cast_natCast n

/-- The text of an integer that fits into the buffer of `parse_number` is the one of a finite number. -/
theorem view_num {n : ℤ} (h : (pyStr n).length ≤ 63) :
    (CNode.num (Double.round n)).view = some (.num (readDouble n)) := by
  have hlt : |n| < 10 ^ 63 := by
    cases n with
    | ofNat n =>
      have hn : n < 10 ^ 63 := (Nat.length_toDigits_le_iff (by decide) (by decide)).1 h
      rw [Int.ofNat_eq_natCast, Nat.abs_cast]
      exact_mod_cast hn
    | negSucc n =>
      have hn : n + 1 < 10 ^ 63 :=
        (Nat.length_toDigits_le_iff (by decide) (by decide)).1 ((Nat.le_succ _).trans h)
      rw [Int.negSucc_eq, abs_neg, abs_of_nonneg (by omega)]
      exact_mod_cast hn
  have hmax : (10 : ℤ) ^ 63 < 2 ^ 1023 :=
    calc (10 : ℤ) ^ 63 < 2 ^ 252 := by norm_num
      _ ≤ 2 ^ 1023 := pow_le_pow_right₀ (by norm_num) (by norm_num)
  obtain ⟨q, hq⟩ := round_finite (hlt.trans hmax)
  rw [hq, CNode.view, readDouble, hq]

/-- A character of ASCII other than the NUL. -/
def Ascii (c : Char) : Prop := 0 < c.toNat ∧ c.toNat < 128

instance (c : Char) : Decidable (Ascii c) := inferInstanceAs (Decidable (_ ∧ _))

theorem Ascii.toNat_ch {c : Char} (hc : Ascii c) : (ch c).toNat = c.toNat := by
  rw [ch, BitVec.toNat_ofNat, Nat.mod_eq_of_lt (hc.2.trans (by decide))]

theorem Ascii.ch_ne_zero {c : Char} (hc : Ascii c) : ch c ≠ 0 := fun h => by
  have hnat := hc.toNat_ch
  rw [h] at hnat
  exact absurd hc.1 (by rw [← hnat]; decide)

theorem flatMap_utf8 {s : List Char} (hs : ∀ c ∈ s, Ascii c) : s.flatMap utf8 = bytesOf s := by
  have hutf8 {c : Char} (hc : Ascii c) : utf8 c = [ch c] := by
    rw [utf8, String.utf8EncodeChar, if_pos (show c.val.toNat ≤ 0x7F from Nat.le_of_lt_succ hc.2)]
    rfl
  induction s with
  | nil => rfl
  | cons c s ih =>
    rw [List.flatMap_cons, hutf8 (hs c List.mem_cons_self), ih fun d hd => hs d (List.mem_cons_of_mem c hd)]
    rfl

theorem zero_notMem_bytesOf {s : List Char} (hs : ∀ c ∈ s, Ascii c) : 0 ∉ bytesOf s := fun h => by
  obtain ⟨c, hc, h0⟩ := List.mem_map.1 h
  exact (hs c hc).ch_ne_zero h0

/-- The bytes of ASCII characters stand for them. -/
theorem charsOf_bytesOf {s : List Char} (hs : ∀ c ∈ s, Ascii c) : charsOf (bytesOf s) = s := by
  rw [charsOf, bytesOf, List.map_map]
  exact (List.map_congr_left fun c hc => by
    rw [Function.comp_apply, (hs c hc).toNat_ch, Char.ofNat_toNat]; rfl).trans s.map_id

theorem charsOf_utf8 {s : List Char} (hs : ∀ c ∈ s, Ascii c) : charsOf (cString (s.flatMap utf8)) = s := by
  have hstring : cString (bytesOf s) = bytesOf s :=
    List.takeWhile_eq_self_iff.2 fun b hb => decide_eq_true fun h => zero_notMem_bytesOf hs (h ▸ hb)
  rw [flatMap_utf8 hs, hstring, charsOf_bytesOf hs]

/-- A character of a string that is kept in single quotes, and by its bytes. -/
def Quotable (c : Char) : Prop := Ascii c ∧ c ≠ '\''

instance (c : Char) : Decidable (Quotable c) := inferInstanceAs (Decidable (_ ∧ _))

/-- What `json.dumps` writes of a tree is what `cJSON` can hold of it: its integers fit into the buffer of
`parse_number`, its strings are quotable, and it is nested no deeper than there is room. -/
structure Plain (room : ℕ) (j : Json ℤ) : Prop where
  short : ShortNumbers j
  quotable : ∀ c ∈ chars j, Quotable c
  shallow : (encode j).depth ≤ room

namespace Plain

variable {room : ℕ}

theorem mono {n : ℕ} {j : Json ℤ} (hj : Plain room j) (h : room ≤ n) : Plain n j :=
  ⟨hj.short, hj.quotable, hj.shallow.trans h⟩

theorem ascii {j : Json ℤ} (hj : Plain room j) : ∀ c ∈ chars j, Ascii c := fun c hc => (hj.quotable c hc).1

theorem no_quote {j : Json ℤ} (hj : Plain room j) : '\'' ∉ chars j := fun h => (hj.quotable _ h).2 rfl

theorem num {n : ℤ} (h : (pyStr n).length ≤ 63) : Plain room (.num n) :=
  ⟨List.forall_mem_singleton.2 h, List.forall_mem_nil _, Nat.zero_le room⟩

theorem nat {n : ℕ} (h : n < 10 ^ 63) : Plain room (.num (n : ℤ)) :=
  num ((Nat.length_toDigits_le_iff (by decide) (by decide)).2 h)

theorem str {s : List Char} (hs : ∀ c ∈ s, Quotable c) : Plain room (.str s) :=
  ⟨List.forall_mem_nil _, hs, Nat.zero_le room⟩

theorem arr {js : List (Json ℤ)} (h : ∀ j ∈ js, Plain room j) : Plain (room + 1) (.arr js) := by
  induction js with
  | nil => exact ⟨List.forall_mem_nil _, List.forall_mem_nil _, Nat.succ_le_succ (Nat.zero_le room)⟩
  | cons j js ih =>
    have hj := h j List.mem_cons_self
    have hjs := ih fun k hk => h k (List.mem_cons_of_mem j hk)
    exact ⟨List.forall_mem_append.2 ⟨hj.short, hjs.short⟩, List.forall_mem_append.2 ⟨hj.quotable, hjs.quotable⟩,
      Nat.succ_le_succ (max_le hj.shallow (Nat.le_of_succ_le_succ hjs.shallow))⟩

theorem obj {fs : List (List Char × Json ℤ)} (h : ∀ f ∈ fs, (∀ c ∈ f.1, Quotable c) ∧ Plain room f.2) :
    Plain (room + 1) (.obj fs) := by
  induction fs with
  | nil => exact ⟨List.forall_mem_nil _, List.forall_mem_nil _, Nat.succ_le_succ (Nat.zero_le room)⟩
  | cons f fs ih =>
    obtain ⟨hname, hj⟩ := h f List.mem_cons_self
    have hfs := ih fun k hk => h k (List.mem_cons_of_mem f hk)
    exact ⟨List.forall_mem_append.2 ⟨hj.short, hfs.short⟩,
      List.forall_mem_append.2 ⟨hname, List.forall_mem_append.2 ⟨hj.quotable, hfs.quotable⟩⟩,
      Nat.succ_le_succ (max_le hj.shallow (Nat.le_of_succ_le_succ hfs.shallow))⟩

end Plain

/-! ## Trees as they were written -/

theorem viewItems_encodeItems {js : List (Json ℤ)} (h : ∀ j ∈ js, (encode j).view = some (j.map readDouble)) :
    CNode.viewItems (encodeItems js) = some (Json.mapItems readDouble js) := by
  induction js with
  | nil => rfl
  | cons j js ih =>
    rw [encodeItems, CNode.viewItems, h j List.mem_cons_self, ih fun k hk => h k (List.mem_cons_of_mem j hk)]
    rfl

theorem viewMembers_encodeFields {fs : List (List Char × Json ℤ)}
    (h : ∀ f ∈ fs, (encode f.2).view = some (f.2.map readDouble)) (hname : ∀ f ∈ fs, ∀ c ∈ f.1, Ascii c) :
    CNode.viewMembers (encodeFields fs) = some (Json.mapFields readDouble fs) := by
  induction fs with
  | nil => rfl
  | cons f fs ih =>
    rw [encodeFields, CNode.viewMembers, h f List.mem_cons_self, charsOf_utf8 (hname f List.mem_cons_self),
      ih (fun k hk => h k (List.mem_cons_of_mem f hk)) fun k hk => hname k (List.mem_cons_of_mem f hk)]
    rfl

theorem mem_charsItems {c : Char} {j : Json ℤ} {js : List (Json ℤ)} (hj : j ∈ js) (hc : c ∈ chars j) :
    c ∈ charsItems js := by
  induction js with
  | nil => exact absurd hj List.not_mem_nil
  | cons k ks ih =>
    rcases List.mem_cons.1 hj with rfl | hj
    · exact List.mem_append_left _ hc
    · exact List.mem_append_right _ (ih hj)

theorem mem_charsFields {c : Char} {f : List Char × Json ℤ} {fs : List (List Char × Json ℤ)} (hf : f ∈ fs)
    (hc : c ∈ f.1 ∨ c ∈ chars f.2) : c ∈ charsFields fs := by
  induction fs with
  | nil => exact absurd hf List.not_mem_nil
  | cons k ks ih =>
    rcases List.mem_cons.1 hf with rfl | hf
    · exact List.mem_append.2 (hc.imp id fun h => List.mem_append_left _ h)
    · exact List.mem_append_right _ (List.mem_append_right _ (ih hf))

/-- **A tree is seen as it was written.** -/
theorem view_encode (j : Json ℤ) : ShortNumbers j → (∀ c ∈ chars j, Ascii c) →
    (encode j).view = some (j.map readDouble) := by
  refine induction (P := fun j => ShortNumbers j → (∀ c ∈ chars j, Ascii c) →
    (encode j).view = some (j.map readDouble)) ?_ ?_ ?_ ?_ ?_ ?_ j
  · exact fun _ _ => rfl
  · exact fun b _ _ => rfl
  · exact fun n hshort _ => view_num (hshort n List.mem_cons_self)
  · intro s _ hs
    rw [encode, CNode.view, charsOf_utf8 (s := s) hs]
    rfl
  · intro js ih hshort hs
    rw [encode, CNode.view, viewItems_encodeItems fun k hk => ih k hk (fun n hn => hshort n (mem_numbersItems hk hn))
      fun c hc => hs c (mem_charsItems hk hc)]
    rfl
  · intro fs ih hshort hs
    rw [encode, CNode.view, viewMembers_encodeFields (fun k hk => ih k hk
      (fun n hn => hshort n (mem_numbersFields hk hn)) fun c hc => hs c (mem_charsFields hk (.inr hc)))
      fun k hk c hc => hs c (mem_charsFields hk (.inl hc))]
    rfl

/-! ## Subcommands -/

/-- What a subcommand does with its tree: whether it succeeds, and the state of the node; there is none if the result
is undefined. -/
abbrev ConfAct (σ : Type) := CJson → σ → Option (Bool × σ)

/-- A subcommand: it reads its options, parses the text, and goes on with the tree. There is no result if the process
ends before that. -/
def confSubcmd {σ : Type} (fs : FileSystem) (act : ConfAct σ) (argv : List CStr) (x : σ) : Option (Bool × σ) := do
  match ← trnCliReadConfStr fs argv with
  | .ok confStr =>
    match ← trnCliParseJson confStr with
    | .ok jsonStr => act (← jsonStr.view) x
    | .error _ => some (false, x)
  | .einval _ => some (false, x)
  | _ => none

section Subcmd

variable {σ : Type} (fs : FileSystem) (act : ConfAct σ) (x : σ)

/-- `-j` -/
def dashJ : CStr := ⟨ascii "-j", by decide⟩

theorem shortOptions_dashJ (text : CStr) (rest : List CStr) : shortOptions confOstr (dashJ :: text :: rest) =
    ⟨ch 'j', some text.bytes⟩ :: shortOptions confOstr rest := by
  have hgroup : groupOptions confOstr (dashJ.bytes.drop 1) = ([], some (ch 'j')) := by decide
  rw [shortOptions, if_neg (by decide), if_neg (by decide), hgroup]
  rfl

/-- The text behind `-j` is read, if no option is behind it. -/
theorem trnCliReadConfStr_dashJ (name text : CStr) {rest : List CStr} (hrest : shortOptions confOstr rest = []) :
    trnCliReadConfStr fs (name :: dashJ :: text :: rest) = some (.ok text.bytes) := by
  have hoptions : confOptions (name :: dashJ :: text :: rest) = [⟨ch 'j', some text.bytes⟩] := by
    rw [confOptions, List.tail_cons, shortOptions_dashJ, hrest]
  have hf : given 'f' [⟨ch 'j', some text.bytes⟩] = [] := given_cons_of_ne j_ne_f
  have hj : given 'j' [⟨ch 'j', some text.bytes⟩] = [text.bytes] := given_cons rfl rfl
  rw [trnCliReadConfStr_of_short fs (by rw [hoptions, PathsShort, hf]; exact List.forall_mem_nil _), hoptions, kept, hj,
    hf]
  exact congrArg some (readConf_string fs text.bytes)

/-- **A subcommand with the text of a tree** goes on with the tree. -/
theorem confSubcmd_dumps (name : CStr) {j : Json ℤ} (hj : Plain cJsonNestingLimit j) {text : CStr}
    (htext : text.bytes = bytesOf (dumps j)) :
    confSubcmd fs act [name, dashJ, text] x = act (j.map readDouble) x := by
  have hparse := cJsonParse_shallow hj.short hj.shallow
  rw [← htext] at hparse
  rw [confSubcmd, trnCliReadConfStr_dashJ fs name text rfl]
  simp only [Option.bind_eq_bind, Option.bind_some, trnCliParseJson, hparse, view_encode j hj.short hj.ascii]

end Subcmd

end ArionDp
