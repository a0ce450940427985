import ArionDp.Cli.CJsonText

/-!
# Trees are read back from their texts

What `cJSON_Parse` makes of the text that `json.dumps` writes of a tree.

* `encode`: a tree as `cJSON` holds it, its strings in UTF-8 and its numbers as doubles;
* **`parseNumber_pyStr`**: integers of not more than 63 characters;
* `Consumes`, **`childLoop_items`**: the items behind each other;
* **`consumes_dumps`**, **`cJsonParse_dumps`**: a text is parsed to its tree where it is not nested too deeply, and
  is refused otherwise.
-/

namespace ArionDp

open Wire Strtod JsonText PyText

/-! ## Numbers -/

theorem digitsValue_append (ds : Bytes) (d : U8) :
    digitsValue (ds ++ [d]) = digitsValue ds * 10 + (d.toNat - 48) := by
  rw [digitsValue, List.foldl_append]
  rfl

/-- The digits of a number denote it. -/
theorem digits_toDigits (n : ℕ) : digitsValue (bytesOf (Nat.toDigits 10 n)) = n ∧
    (∀ d ∈ bytesOf (Nat.toDigits 10 n), isDigit d = true) ∧ bytesOf (Nat.toDigits 10 n) ≠ [] := by
  have hdigit : ∀ k < 10, isDigit (ch (Nat.digitChar k)) = true ∧ (ch (Nat.digitChar k)).toNat - 48 = k := by decide
  induction n using Nat.strong_induction_on with
  | _ n ih =>
    rw [Nat.toDigits_eq_if (by decide)]
    split_ifs with hn
    · refine ⟨?_, List.forall_mem_singleton.2 (hdigit n hn).1, List.cons_ne_nil _ _⟩
      exact (Nat.zero_add _).trans (hdigit n hn).2
    · obtain ⟨hvalue, hall, -⟩ := ih (n / 10) (by omega)
      have hlast := hdigit (n % 10) (Nat.mod_lt n (by decide))
      rw [bytesOf_append]
      refine ⟨?_, List.forall_mem_append.2 ⟨hall, List.forall_mem_singleton.2 hlast.1⟩,
        List.append_ne_nil_of_right_ne_nil _ (List.cons_ne_nil _ _)⟩
      rw [bytesOf_cons, bytesOf_nil, digitsValue_append, hvalue, hlast.2, Nat.div_add_mod']

/-- **The text of an integer** denotes the double next to it. -/
theorem strtod_pyStr (n : ℤ) : strtod (bytesOf (pyStr n)) = some (Double.round n, (pyStr n).length) := by
  cases n with
  | ofNat n =>
    obtain ⟨hvalue, hall, hne⟩ := digits_toDigits n
    have h := (strtod_digits hall hne).1
    rw [hvalue, length_bytesOf] at h
    exact h
  | negSucc n =>
    obtain ⟨hvalue, hall, hne⟩ := digits_toDigits (n + 1)
    have h := (strtod_digits hall hne).2
    rw [hvalue, length_bytesOf] at h
    exact h

theorem numberChar_pyStr (n : ℤ) : ∀ b ∈ bytesOf (pyStr n), numberChar b = true := by
  have hdigits (m : ℕ) : ∀ b ∈ bytesOf (Nat.toDigits 10 m), numberChar b = true := fun b hb => by
    rw [numberChar, (digits_toDigits m).2.1 b hb]
    rfl
  cases n with
  | ofNat n => exact hdigits n
  | negSucc n => exact List.forall_mem_cons.2 ⟨by decide, hdigits (n + 1)⟩

/-- A number starts with a digit, or with a minus sign. -/
theorem head_pyStr (n : ℤ) : ∃ b w, bytesOf (pyStr n) = b :: w ∧ (b = ch '-' ∨ isDigit b = true) := by
  cases n with
  | ofNat n =>
    obtain ⟨-, hall, hne⟩ := digits_toDigits n
    obtain ⟨b, w, hw⟩ := List.exists_cons_of_ne_nil hne
    exact ⟨b, w, hw, .inr (hall b (hw ▸ List.mem_cons_self))⟩
  | negSucc n => exact ⟨_, _, rfl, .inl rfl⟩

section Content

variable {content : Bytes} {p : ℕ}

/-- **An integer is read** up to a character that is of no number. -/
theorem parseNumber_pyStr {n : ℤ} {d : U8} (hn : (pyStr n).length ≤ 63) (hd : numberChar d = false)
    (h : At content p (bytesOf (pyStr n) ++ [d])) :
    parseNumber content p = some (.yes (.num (Double.round n)) (p + (pyStr n).length)) := by
  obtain ⟨l, hl⟩ := h
  have hcopied : ((content.drop p).take 63).takeWhile numberChar = bytesOf (pyStr n) := by
    rw [← hl, List.append_assoc, List.take_append, length_bytesOf, List.take_of_length_le (by rwa [length_bytesOf]),
      List.takeWhile_append_of_pos (numberChar_pyStr n)]
    conv_rhs => rw [← List.append_nil (bytesOf (pyStr n))]
    congr 1
    cases 63 - (pyStr n).length with
    | zero => rfl
    | succ k => exact List.takeWhile_cons_of_neg (by simp [hd])
  rw [parseNumber, hcopied, strtod_pyStr]

/-! ## Items -/

/-- A function reads a text as `r`, in front of a character that is of no number; it fails if `r` is `none`. -/
def Consumes {α : Type} (content : Bytes) (item : ℕ → Option (Parsed α)) (w : Bytes) (r : Option α) : Prop :=
  ∀ p d, numberChar d = false → At content p (w ++ [d]) →
    (∀ a, r = some a → item p = some (.yes a (p + w.length))) ∧ (r = none → ∃ q, item p = some (.no q))

/-- A text that starts with a character that is no white space and no closing bracket. -/
def Solid (w : Bytes) : Prop := ∃ b v, w = b :: v ∧ blank b = false ∧ b ≠ ch ']' ∧ b ≠ ch '}'

theorem Solid.skip {w : Bytes} (hw : Solid w) {v : Bytes} (h : At content p (w ++ v)) :
    bufferSkipWhitespace content p = p := by
  obtain ⟨b, l, rfl, hb, -⟩ := hw
  exact h.skip hb

theorem Solid.skip_space {w : Bytes} (hw : Solid w) {v : Bytes} (h : At content p (ch ' ' :: (w ++ v))) :
    bufferSkipWhitespace content p = p + 1 := by
  obtain ⟨b, l, rfl, hb, -⟩ := hw
  exact h.skip_space hb

section Items

variable {α ι : Type} {item : ℕ → Option (Parsed α)} {last : U8} {text : ι → Bytes} {res : ι → Option α}

/-- The items behind the first one. -/
def moreItems (text : ι → Bytes) (l : List ι) : Bytes := l.flatMap fun i => ch ',' :: ch ' ' :: text i

theorem moreItems_cons (text : ι → Bytes) (i : ι) (l : List ι) (v : Bytes) :
    moreItems text (i :: l) ++ v = ch ',' :: ch ' ' :: (text i ++ (moreItems text l ++ v)) := by
  simp [moreItems]

variable {n q o : ℕ} {head : List α} {a : α}

theorem childLoop_no (hskip : bufferSkipWhitespace content (q + 1) = p) (h : item p = some (.no o)) :
    childLoop content item last (n + 1) q head = some (.no o) := by
  rw [childLoop, hskip, h]
  rfl

theorem childLoop_more (hskip : bufferSkipWhitespace content (q + 1) = p) (h : item p = some (.yes a o))
    {w : Bytes} (hcomma : At content o (ch ',' :: w)) :
    childLoop content item last (n + 1) q head = childLoop content item last n o (head ++ [a]) := by
  rw [childLoop, hskip, h]
  simp only [Option.bind_eq_bind, Option.bind_some, Parsed.andThen, hcomma.skip (by decide), hcomma.get, if_true]

theorem childLoop_last (hskip : bufferSkipWhitespace content (q + 1) = p) (h : item p = some (.yes a o))
    (hlast : blank last = false ∧ last ≠ ch ',') {w : Bytes} (hend : At content o (last :: w)) :
    childLoop content item last (n + 1) q head = some (.yes (head ++ [a]) (o + 1)) := by
  rw [childLoop, hskip, h]
  simp only [Option.bind_eq_bind, Option.bind_some, Parsed.andThen, hend.skip hlast.1, hend.get, Option.some.injEq,
    if_neg hlast.2, if_true]

/-- An item that fails ends the loop, whatever items are behind it. -/
theorem childLoop_fails (hskip : bufferSkipWhitespace content (q + 1) = p) {i : ι} {l : List ι} (hr : res i = none)
    (hno : ∃ o, item p = some (.no o)) {r : List α → Parsed (List α)} :
    (∀ as, (i :: l).mapM res = some as → childLoop content item last (n + 1) q head = some (r as)) ∧
    ((i :: l).mapM res = none → ∃ o, childLoop content item last (n + 1) q head = some (.no o)) := by
  obtain ⟨o, ho⟩ := hno
  refine ⟨fun as has => ?_, fun _ => ⟨o, childLoop_no hskip ho⟩⟩
  rw [List.mapM_cons, hr] at has
  exact absurd has (Option.some_ne_none _).symm

/-- **Items are read one after the other**, until one fails. -/
theorem childLoop_items (hlast : blank last = false ∧ last ≠ ch ',') (hnum : numberChar last = false)
    {i : ι} {l : List ι} (htake : ∀ j ∈ i :: l, Consumes content item (text j) (res j) ∧ Solid (text j))
    (hn : l.length < n) (hskip : bufferSkipWhitespace content (q + 1) = p)
    (h : At content p (text i ++ (moreItems text l ++ [last]))) :
    (∀ as, (i :: l).mapM res = some as → childLoop content item last n q head =
      some (.yes (head ++ as) (p + (text i).length + (moreItems text l).length + 1))) ∧
    ((i :: l).mapM res = none → ∃ o, childLoop content item last n q head = some (.no o)) := by
  induction l generalizing i n q p head with
  | nil =>
    obtain ⟨n, rfl⟩ := Nat.exists_eq_add_of_lt hn
    obtain ⟨hyes, hno⟩ := (htake i List.mem_cons_self).1 p last hnum h
    have hend : At content (p + (text i).length) [last] := h.right
    cases hr : res i with
    | none => exact childLoop_fails hskip hr (hno hr)
    | some a =>
      refine ⟨fun as has => ?_, fun hnone => ?_⟩
      · rw [List.mapM_cons, hr] at has
        obtain rfl : [a] = as := Option.some.inj has
        exact childLoop_last hskip (hyes a hr) hlast hend
      · rw [List.mapM_cons, hr] at hnone
        exact absurd hnone (Option.some_ne_none _)
  | cons j l ih =>
    obtain ⟨n, rfl⟩ := Nat.exists_eq_add_of_lt hn
    rw [moreItems_cons] at h
    have hsep : At content p (text i ++ [ch ',']) := by
      rw [List.append_cons] at h
      exact h.left
    obtain ⟨hyes, hno⟩ := (htake i List.mem_cons_self).1 p (ch ',') (by decide) hsep
    cases hr : res i with
    | none => exact childLoop_fails hskip hr (hno hr)
    | some a =>
      have hright := h.right
      have hsolid := (htake j (List.mem_cons_of_mem i List.mem_cons_self)).2
      obtain ⟨ihyes, ihno⟩ := @ih _ ((j :: l).length + n) _ (head ++ [a]) j
        (fun k hk => htake k (List.mem_cons_of_mem i hk)) (by rw [List.length_cons]; omega)
        (hsolid.skip_space hright.tail) hright.tail.tail
      have hstep : childLoop content item last ((j :: l).length + n + 1) q head =
          childLoop content item last ((j :: l).length + n) (p + (text i).length) (head ++ [a]) :=
        childLoop_more hskip (hyes a hr) hright
      rw [List.mapM_cons, hr]
      cases hrest : (j :: l).mapM res with
      | none => exact ⟨fun as has => absurd has (Option.some_ne_none _).symm, fun _ => hstep ▸ ihno hrest⟩
      | some as =>
        refine ⟨fun bs hbs => ?_, fun hnone => absurd hnone (Option.some_ne_none _)⟩
        obtain rfl : a :: as = bs := Option.some.inj hbs
        rw [hstep, ihyes as hrest, List.append_assoc, List.singleton_append]
        congr 2
        simp only [moreItems, List.flatMap_cons, List.length_append, List.length_cons]
        omega

/-- The closing bracket of an array or of an object. -/
def Closing (last : U8) : Prop := last = ch ']' ∨ last = ch '}'

theorem Closing.spec (hlast : Closing last) : blank last = false ∧ last ≠ ch ',' ∧ numberChar last = false := by
  rcases hlast with rfl | rfl <;> decide

theorem Solid.ne_closing {w v : Bytes} (hw : Solid w) (hlast : Closing last) (h : At content p (w ++ v)) :
    content[p]? ≠ some last := by
  obtain ⟨b, l, rfl, -, h1, h2⟩ := hw
  intro heq
  obtain rfl := Option.some.inj (h.get.symm.trans heq)
  exact hlast.elim h1 h2

/-- The items between the brackets. -/
theorem parseChildren_items (hlast : Closing last) {i : ι} {l : List ι}
    (htake : ∀ j ∈ i :: l, Consumes content item (text j) (res j) ∧ Solid (text j)) {b : U8}
    (h : At content p (b :: (text i ++ (moreItems text l ++ [last])))) :
    (∀ as, (i :: l).mapM res = some as → parseChildren content item last p =
      some (.yes as (p + 1 + (text i).length + (moreItems text l).length + 1))) ∧
    ((i :: l).mapM res = none → ∃ o, parseChildren content item last p = some (.no o)) := by
  have hsolid := (htake i List.mem_cons_self).2
  have hskip := hsolid.skip h.tail
  have hlen : p + 1 + ((text i).length + ((moreItems text l).length + 1)) ≤ content.length := by
    simpa using h.tail.length_le (by simp)
  have hitems : l.length ≤ (moreItems text l).length := by
    simp [moreItems, List.length_flatMap]
  have hchild : parseChildren content item last p = childLoop content item last (content.length + 1) p [] := by
    rw [parseChildren, hskip, if_neg (hsolid.ne_closing hlast h.tail), if_neg (by omega), Nat.add_sub_cancel]
  rw [hchild]
  exact childLoop_items ⟨hlast.spec.1, hlast.spec.2.1⟩ hlast.spec.2.2 htake (by omega) hskip h.tail

theorem parseChildren_nil (hlast : Closing last) {b : U8} (h : At content p (b :: [last])) :
    parseChildren content item last p = some (.yes [] (p + 2)) := by
  rw [parseChildren, h.tail.skip hlast.spec.1, h.tail.get, if_pos rfl]

end Items

/-! ## Values -/

mutual

/-- A tree as `cJSON` holds it. -/
def encode : Json ℤ → CNode
  | .null => .null
  | .bool b => .bool b
  | .num n => .num (Double.round n)
  | .str s => .str (cString (s.flatMap utf8))
  | .arr js => .arr (encodeItems js)
  | .obj fs => .obj (encodeFields fs)

/-- The items of an array. -/
def encodeItems : List (Json ℤ) → List CNode
  | [] => []
  | j :: js => encode j :: encodeItems js

/-- The fields of an object. -/
def encodeFields : List (List Char × Json ℤ) → List (Bytes × CNode)
  | [] => []
  | (k, j) :: fs => (cString (k.flatMap utf8), encode j) :: encodeFields fs

end

mutual

/-- The numbers of a tree. -/
def numbers : Json ℤ → List ℤ
  | .num n => [n]
  | .arr js => numbersItems js
  | .obj fs => numbersFields fs
  | _ => []

/-- The numbers of the items of an array. -/
def numbersItems : List (Json ℤ) → List ℤ
  | [] => []
  | j :: js => numbers j ++ numbersItems js

/-- The numbers of the fields of an object. -/
def numbersFields : List (List Char × Json ℤ) → List ℤ
  | [] => []
  | (_, j) :: fs => numbers j ++ numbersFields fs

end

/-- A tree that is read with `room` levels left, if it is. -/
def reading (room : ℕ) (j : Json ℤ) : Option CNode := if (encode j).depth ≤ room then some (encode j) else none

/-- A field that is read with `room` levels left. -/
def readingField (room : ℕ) (f : List Char × Json ℤ) : Option (Bytes × CNode) :=
  (reading room f.2).map fun a => (cString (f.1.flatMap utf8), a)

theorem readingField_eq (room : ℕ) (f : List Char × Json ℤ) : readingField room f =
    if (encode f.2).depth ≤ room then some (cString (f.1.flatMap utf8), encode f.2) else none := by
  rw [readingField, reading]
  split_ifs <;> rfl

/-- A tree and those behind it, with the greater one of their depths. -/
theorem cons_of_max {α : Type} {m n room : ℕ} (a : α) (as : List α) :
    ((if m ≤ room then some a else none) >>= fun x => (if n ≤ room then some as else none) >>= fun xs =>
      some (x :: xs)) = if max m n ≤ room then some (a :: as) else none := by
  by_cases hm : m ≤ room
  · by_cases hn : n ≤ room
    · rw [if_pos hm, if_pos hn, if_pos (max_le hm hn)]
      rfl
    · rw [if_pos hm, if_neg hn, if_neg fun h => hn (le_of_max_le_right h)]
      rfl
  · rw [if_neg hm, if_neg fun h => hm (le_of_max_le_left h)]
    rfl

theorem mapM_reading (room : ℕ) (js : List (Json ℤ)) : js.mapM (reading room) =
    if CNode.depthItems (encodeItems js) ≤ room then some (encodeItems js) else none := by
  induction js with
  | nil => exact (if_pos (Nat.zero_le room)).symm
  | cons j js ih =>
    rw [List.mapM_cons, ih, reading, encodeItems, CNode.depthItems]
    exact cons_of_max ..

theorem mapM_readingField (room : ℕ) (fs : List (List Char × Json ℤ)) : fs.mapM (readingField room) =
    if CNode.depthMembers (encodeFields fs) ≤ room then some (encodeFields fs) else none := by
  induction fs with
  | nil => exact (if_pos (Nat.zero_le room)).symm
  | cons f fs ih =>
    rw [List.mapM_cons, ih, readingField_eq, encodeFields, CNode.depthMembers]
    exact cons_of_max ..

/-- A byte that starts none of the words. -/
theorem parseValueWith_of_get {array object : ℕ → Option (Parsed CNode)} {b : U8} (h : content[p]? = some b)
    (hb : b ≠ ch 'n' ∧ b ≠ ch 'f' ∧ b ≠ ch 't') :
    parseValueWith content array object p =
      if b = ch '"' then (parseString content p).bind fun r => r.andThen fun valuestring offset =>
        some (.yes (.str valuestring) offset)
      else if b = ch '-' ∨ isDigit b then parseNumber content p
      else if b = ch '[' then array p
      else if b = ch '{' then object p
      else some (.no p) := by
  have hword {c : U8} {v : Bytes} (hc : b ≠ c) : (c :: v).isPrefixOf (content.drop p) = false := by
    obtain ⟨hlt, hget⟩ := List.getElem?_eq_some_iff.1 h
    rw [List.drop_eq_getElem_cons hlt, hget, List.isPrefixOf, beq_false_of_ne hc.symm, Bool.false_and]
  have hnull : (ascii "null").isPrefixOf (content.drop p) = false := hword hb.1
  have hfalse : (ascii "false").isPrefixOf (content.drop p) = false := hword hb.2.1
  have htrue : (ascii "true").isPrefixOf (content.drop p) = false := hword hb.2.2
  simp only [parseValueWith, hnull, hfalse, htrue, Bool.false_eq_true, if_false, h, Option.bind_eq_bind]

theorem parseValue_eq (content : Bytes) (room : ℕ) :
    ∃ array object, parseValue content room = parseValueWith content array object := by
  cases room with
  | zero => exact ⟨_, _, rfl⟩
  | succ room => exact ⟨_, _, rfl⟩

/-- A function that returns true on a text. -/
theorem consumes_some {α : Type} {item : ℕ → Option (Parsed α)} {w : Bytes} {a : α}
    (h : ∀ p d, numberChar d = false → At content p (w ++ [d]) → item p = some (.yes a (p + w.length))) :
    Consumes content item w (some a) := by
  intro p d hd hw
  exact ⟨fun b hb => Option.some.inj hb ▸ h p d hd hw, fun hnone => absurd hnone (Option.some_ne_none _)⟩

theorem reading_of_depth_eq_zero {j : Json ℤ} (h : (encode j).depth = 0) (room : ℕ) :
    reading room j = some (encode j) := if_pos (h ▸ Nat.zero_le room)

theorem At.isPrefixOf {w : Bytes} (h : At content p w) : w.isPrefixOf (content.drop p) = true :=
  List.isPrefixOf_iff_prefix.2 h

theorem At.not_isPrefixOf {b c : U8} {v w : Bytes} (h : At content p (b :: v)) (hbc : c ≠ b) :
    (c :: w).isPrefixOf (content.drop p) = false := by
  obtain ⟨hlt, hget⟩ := List.getElem?_eq_some_iff.1 h.get
  rw [List.drop_eq_getElem_cons hlt, hget, List.isPrefixOf, beq_false_of_ne hbc, Bool.false_and]

theorem consumes_null (room : ℕ) : Consumes content (parseValue content room) (ascii "null") (some .null) := by
  obtain ⟨array, object, heq⟩ := parseValue_eq content room
  refine consumes_some fun p d _ h => ?_
  rw [heq, parseValueWith, if_pos h.left.isPrefixOf]
  rfl

theorem consumes_false (room : ℕ) :
    Consumes content (parseValue content room) (ascii "false") (some (.bool false)) := by
  obtain ⟨array, object, heq⟩ := parseValue_eq content room
  refine consumes_some fun p d _ h => ?_
  have hnull : (ascii "null").isPrefixOf (content.drop p) = false := h.not_isPrefixOf (by decide)
  rw [heq, parseValueWith, hnull, if_neg Bool.false_ne_true, if_pos h.left.isPrefixOf]
  rfl

theorem consumes_true (room : ℕ) :
    Consumes content (parseValue content room) (ascii "true") (some (.bool true)) := by
  obtain ⟨array, object, heq⟩ := parseValue_eq content room
  refine consumes_some fun p d _ h => ?_
  have hnull : (ascii "null").isPrefixOf (content.drop p) = false := h.not_isPrefixOf (by decide)
  have hfalse : (ascii "false").isPrefixOf (content.drop p) = false := h.not_isPrefixOf (by decide)
  rw [heq, parseValueWith, hnull, hfalse, if_neg Bool.false_ne_true, if_neg Bool.false_ne_true,
    if_pos h.left.isPrefixOf]
  rfl

theorem consumes_num (room : ℕ) {n : ℤ} (hn : (pyStr n).length ≤ 63) :
    Consumes content (parseValue content room) (bytesOf (pyStr n)) (some (.num (Double.round n))) := by
  obtain ⟨array, object, heq⟩ := parseValue_eq content room
  obtain ⟨b, v, hw, hb⟩ := head_pyStr n
  have hother : b ≠ ch '"' ∧ b ≠ ch 'n' ∧ b ≠ ch 'f' ∧ b ≠ ch 't' := by
    rcases hb with rfl | hb
    · decide
    · exact ⟨by rintro rfl; exact absurd hb (by decide), by rintro rfl; exact absurd hb (by decide),
        by rintro rfl; exact absurd hb (by decide), by rintro rfl; exact absurd hb (by decide)⟩
  refine consumes_some fun p d hd h => ?_
  have hget : content[p]? = some b := by
    rw [hw] at h
    exact h.get
  rw [heq, parseValueWith_of_get hget hother.2, if_neg hother.1, if_pos hb, parseNumber_pyStr hn hd h, length_bytesOf]

theorem consumes_str (room : ℕ) (s : List Char) :
    Consumes content (parseValue content room) (bytesOf (quote s)) (some (.str (cString (s.flatMap utf8)))) := by
  obtain ⟨array, object, heq⟩ := parseValue_eq content room
  refine consumes_some fun p d _ h => ?_
  rw [heq, parseValueWith_of_get h.left.get (by decide), if_pos rfl, parseString_quote s h.left, length_bytesOf]
  rfl

/-- A name, a colon and a value. -/
theorem consumes_field (room : ℕ) {f : List Char × Json ℤ} (hsolid : Solid (bytesOf (dumps f.2)))
    (hvalue : Consumes content (parseValue content room) (bytesOf (dumps f.2)) (reading room f.2)) :
    Consumes content (parseMember content (parseValue content room)) (bytesOf (dumpsField f))
      (readingField room f) := by
  intro p d hd h
  have htext : bytesOf (dumpsField f) ++ [d] =
      bytesOf (quote f.1) ++ (ch ':' :: ch ' ' :: (bytesOf (dumps f.2) ++ [d])) := by
    simp [dumpsField]
  have hlen : p + (bytesOf (dumpsField f)).length = p + (quote f.1).length + 2 + (bytesOf (dumps f.2)).length := by
    simp only [dumpsField, length_bytesOf, List.length_append, List.length_cons]
    omega
  rw [htext] at h
  have hright := h.right
  rw [length_bytesOf] at hright
  have hvalue' := hvalue _ d hd hright.tail.tail
  have hmember : parseMember content (parseValue content room) p =
      (parseValue content room (p + (quote f.1).length + 2)).bind fun r => r.andThen fun a offset =>
        some (.yes (cString (f.1.flatMap utf8), a) offset) := by
    rw [parseMember, parseString_quote f.1 h.left]
    simp only [Option.bind_eq_bind, Option.bind_some, Parsed.andThen, hright.skip (by decide), hright.get, ne_eq,
      not_true_eq_false, if_false, hsolid.skip_space hright.tail]
  rw [hmember, hlen, readingField]
  cases hr : reading room f.2 with
  | none =>
    obtain ⟨q, hq⟩ := hvalue'.2 hr
    exact ⟨fun a ha => absurd ha (Option.some_ne_none _).symm, fun _ => ⟨q, by rw [hq]; rfl⟩⟩
  | some a =>
    refine ⟨fun b hb => ?_, fun hnone => absurd hnone (Option.some_ne_none _)⟩
    rw [hvalue'.1 a hr, ← Option.some.inj hb]
    rfl

theorem solid_dumps (j : Json ℤ) : Solid (bytesOf (dumps j)) := by
  match j with
  | .null => exact ⟨_, _, rfl, by decide⟩
  | .bool true => exact ⟨_, _, rfl, by decide⟩
  | .bool false => exact ⟨_, _, rfl, by decide⟩
  | .num n =>
    obtain ⟨b, v, hw, hb⟩ := head_pyStr n
    refine ⟨b, v, hw, ?_⟩
    rcases hb with rfl | hb
    · decide
    · have hdigit : ∀ b : U8, isDigit b = true → blank b = false ∧ b ≠ ch ']' ∧ b ≠ ch '}' := by decide +kernel
      exact hdigit b hb
  | .str s => exact ⟨_, _, rfl, by decide⟩
  | .arr [] => exact ⟨_, _, rfl, by decide⟩
  | .arr (j :: js) => exact ⟨_, _, rfl, by decide⟩
  | .obj [] => exact ⟨_, _, rfl, by decide⟩
  | .obj (f :: fs) => exact ⟨_, _, rfl, by decide⟩

/-- The brackets of an array, or of an object. -/
theorem consumes_children {α : Type} {item : ℕ → Option (Parsed α)} {node : List α → CNode}
    {parse : ℕ → Option (Parsed CNode)} {first last : U8} (hlast : Closing last)
    (hparse : ∀ p, content[p]? = some first → parse p = (parseChildren content item last p).bind fun r =>
      r.andThen fun child offset => some (.yes (node child) offset))
    {ι : Type} {text : ι → Bytes} {res : ι → Option α} {i : ι} {l : List ι}
    (htake : ∀ j ∈ i :: l, Consumes content item (text j) (res j) ∧ Solid (text j)) :
    Consumes content parse (first :: (text i ++ (moreItems text l ++ [last]))) (((i :: l).mapM res).map node) := by
  intro p d _ h
  have hw := At.left (w := [d]) h
  obtain ⟨hyes, hno⟩ := parseChildren_items hlast htake hw
  rw [hparse p hw.get]
  cases hr : (i :: l).mapM res with
  | none =>
    obtain ⟨o, ho⟩ := hno hr
    exact ⟨fun a ha => absurd ha (Option.some_ne_none _).symm, fun _ => ⟨o, by rw [ho]; rfl⟩⟩
  | some as =>
    refine ⟨fun b hb => ?_, fun hnone => absurd hnone (Option.some_ne_none _)⟩
    rw [hyes as hr, ← Option.some.inj hb]
    simp only [Option.bind_some, Parsed.andThen]
    congr 2
    simp only [List.length_cons, List.length_append, List.length_nil]
    omega

theorem consumes_children_nil {α : Type} {item : ℕ → Option (Parsed α)} {node : List α → CNode}
    {parse : ℕ → Option (Parsed CNode)} {first last : U8} (hlast : Closing last)
    (hparse : ∀ p, content[p]? = some first → parse p = (parseChildren content item last p).bind fun r =>
      r.andThen fun child offset => some (.yes (node child) offset)) :
    Consumes content parse [first, last] (some (node [])) := by
  refine consumes_some fun p d _ h => ?_
  have hw : At content p [first, last] := At.left (w := [d]) h
  rw [hparse p hw.get, parseChildren_nil hlast hw]
  rfl

theorem bytesOf_dumps_arr (j : Json ℤ) (js : List (Json ℤ)) : bytesOf (dumps (.arr (j :: js))) =
    ch '[' :: (bytesOf (dumps j) ++ (moreItems (fun j => bytesOf (dumps j)) js ++ [ch ']'])) := by
  rw [dumps, dumpsItems_eq]
  simp [moreItems, bytesOf, List.map_flatMap]

theorem bytesOf_dumps_obj (f : List Char × Json ℤ) (fs : List (List Char × Json ℤ)) :
    bytesOf (dumps (.obj (f :: fs))) =
      ch '{' :: (bytesOf (dumpsField f) ++ (moreItems (fun f => bytesOf (dumpsField f)) fs ++ [ch '}'])) := by
  rw [dumps, dumpsFields_eq]
  simp [moreItems, bytesOf, dumpsField, List.map_flatMap]

theorem parseValue_arr (room : ℕ) (h : content[p]? = some (ch '[')) : parseValue content (room + 1) p =
    (parseChildren content (parseValue content room) (ch ']') p).bind fun r =>
      r.andThen fun child offset => some (.yes (.arr child) offset) := by
  have hvalue : parseValue content (room + 1) p = parseArray content (parseValue content room) p :=
    parseValueWith_of_get h (by decide)
  rw [hvalue, parseArray, h]
  rfl

theorem parseValue_obj (room : ℕ) (h : content[p]? = some (ch '{')) : parseValue content (room + 1) p =
    (parseChildren content (parseMember content (parseValue content room)) (ch '}') p).bind fun r =>
      r.andThen fun child offset => some (.yes (.obj child) offset) := by
  have hvalue : parseValue content (room + 1) p = parseObject content (parseValue content room) p :=
    parseValueWith_of_get h (by decide)
  rw [hvalue, parseObject, h, if_neg (not_not.2 rfl)]
  rfl

/-- Without room, a bracket is refused. -/
theorem consumes_none_of_bracket {b : U8} {w : Bytes} (hb : b = ch '[' ∨ b = ch '{') :
    Consumes content (parseValue content 0) (b :: w) none := by
  intro p d _ h
  refine ⟨fun a ha => absurd ha (Option.some_ne_none _).symm, fun _ => ⟨p, ?_⟩⟩
  have hget : content[p]? = some b := At.get (w := w ++ [d]) h
  rcases hb with rfl | rfl
  · exact parseValueWith_of_get hget (by decide)
  · exact parseValueWith_of_get hget (by decide)

theorem mem_numbersItems {n : ℤ} {j : Json ℤ} {js : List (Json ℤ)} (hj : j ∈ js) (hn : n ∈ numbers j) :
    n ∈ numbersItems js := by
  induction js with
  | nil => exact absurd hj List.not_mem_nil
  | cons k ks ih =>
    rcases List.mem_cons.1 hj with rfl | hj
    · exact List.mem_append_left _ hn
    · exact List.mem_append_right _ (ih hj)

theorem mem_numbersFields {n : ℤ} {f : List Char × Json ℤ} {fs : List (List Char × Json ℤ)} (hf : f ∈ fs)
    (hn : n ∈ numbers f.2) : n ∈ numbersFields fs := by
  induction fs with
  | nil => exact absurd hf List.not_mem_nil
  | cons k ks ih =>
    rcases List.mem_cons.1 hf with rfl | hf
    · exact List.mem_append_left _ hn
    · exact List.mem_append_right _ (ih hf)

/-- The text of an integer fits into the buffer of `parse_number`. -/
def ShortNumbers (j : Json ℤ) : Prop := ∀ n ∈ numbers j, (pyStr n).length ≤ 63

theorem reading_arr (room : ℕ) (js : List (Json ℤ)) :
    reading (room + 1) (.arr js) = (js.mapM (reading room)).map .arr := by
  rw [mapM_reading, reading, encode, CNode.depth]
  simp only [Nat.add_le_add_iff_right]
  split_ifs <;> rfl

theorem reading_obj (room : ℕ) (fs : List (List Char × Json ℤ)) :
    reading (room + 1) (.obj fs) = (fs.mapM (readingField room)).map .obj := by
  rw [mapM_readingField, reading, encode, CNode.depth]
  simp only [Nat.add_le_add_iff_right]
  split_ifs <;> rfl

theorem consumes_arr {js : List (Json ℤ)} (room : ℕ)
    (ih : ∀ j ∈ js, ∀ room, Consumes content (parseValue content room) (bytesOf (dumps j)) (reading room j)) :
    Consumes content (parseValue content room) (bytesOf (dumps (.arr js))) (reading room (.arr js)) := by
  cases room with
  | zero =>
    have hnone : reading 0 (.arr js) = none := if_neg (Nat.not_succ_le_zero _)
    rw [hnone]
    cases js with
    | nil => exact consumes_none_of_bracket (.inl rfl)
    | cons j js => exact consumes_none_of_bracket (.inl rfl)
  | succ room =>
    rw [reading_arr]
    cases js with
    | nil => exact consumes_children_nil (.inl rfl) fun p hp => parseValue_arr room hp
    | cons j js =>
      rw [bytesOf_dumps_arr]
      exact consumes_children (.inl rfl) (fun p hp => parseValue_arr room hp) fun k hk => ⟨ih k hk room, solid_dumps k⟩

theorem consumes_obj {fs : List (List Char × Json ℤ)} (room : ℕ)
    (ih : ∀ f ∈ fs, ∀ room, Consumes content (parseValue content room) (bytesOf (dumps f.2)) (reading room f.2)) :
    Consumes content (parseValue content room) (bytesOf (dumps (.obj fs))) (reading room (.obj fs)) := by
  cases room with
  | zero =>
    have hnone : reading 0 (.obj fs) = none := if_neg (Nat.not_succ_le_zero _)
    rw [hnone]
    cases fs with
    | nil => exact consumes_none_of_bracket (.inr rfl)
    | cons f fs => exact consumes_none_of_bracket (.inr rfl)
  | succ room =>
    rw [reading_obj]
    cases fs with
    | nil => exact consumes_children_nil (.inr rfl) fun p hp => parseValue_obj room hp
    | cons f fs =>
      rw [bytesOf_dumps_obj]
      exact consumes_children (.inr rfl) (fun p hp => parseValue_obj room hp) fun k hk =>
        ⟨consumes_field room (solid_dumps k.2) (ih k hk room), ⟨_, _, rfl, by decide⟩⟩

/-- **A text is parsed to its tree** where it is not nested more deeply than there is room, and is refused
otherwise. -/
theorem consumes_dumps (j : Json ℤ) : ShortNumbers j → ∀ room,
    Consumes content (parseValue content room) (bytesOf (dumps j)) (reading room j) := by
  refine induction (P := fun j => ShortNumbers j → ∀ room,
    Consumes content (parseValue content room) (bytesOf (dumps j)) (reading room j)) ?_ ?_ ?_ ?_ ?_ ?_ j
  · exact fun _ room => reading_of_depth_eq_zero (j := .null) rfl room ▸ consumes_null room
  · intro b _ room
    rw [reading_of_depth_eq_zero rfl]
    cases b
    · exact consumes_false room
    · exact consumes_true room
  · intro n hshort room
    rw [reading_of_depth_eq_zero rfl]
    exact consumes_num room (hshort n List.mem_cons_self)
  · exact fun s _ room => reading_of_depth_eq_zero (j := .str s) rfl room ▸ consumes_str room s
  · exact fun js ih hshort room => consumes_arr room fun k hk => ih k hk fun n hn => hshort n (mem_numbersItems hk hn)
  · exact fun fs ih hshort room => consumes_obj room fun k hk => ih k hk fun n hn => hshort n (mem_numbersFields hk hn)

end Content

theorem printable_bytes_dumps (j : Json ℤ) : ∀ b ∈ bytesOf (dumps j), b ≠ 0 ∧ 0xEF#8 ≠ b := by
  intro b hb
  obtain ⟨c, hc, rfl⟩ := List.mem_map.1 hb
  obtain ⟨hnat, hlow, hhigh⟩ := toNat_ch (printable_dumps j c hc)
  refine ⟨fun h => ?_, fun h => ?_⟩
  · rw [h] at hnat
    exact absurd hlow (by rw [← hnat]; decide)
  · rw [← h] at hnat
    exact absurd hhigh (by rw [← hnat]; decide)

/-- There is no NUL in a text. -/
theorem cString_bytesOf_dumps (j : Json ℤ) : cString (bytesOf (dumps j)) = bytesOf (dumps j) :=
  List.takeWhile_eq_self_iff.2 fun b hb => decide_eq_true (printable_bytes_dumps j b hb).1

/-- The parser of a text starts at its first character. -/
theorem cJsonParse_start (j : Json ℤ) : cJsonParse (bytesOf (dumps j)) =
    (parseValue (bytesOf (dumps j) ++ [0]) cJsonNestingLimit 0).bind fun r => match r with
      | .yes item _ => some (.ok item)
      | .no offset => some (.error (if offset < (bytesOf (dumps j) ++ [0]).length then offset
          else (bytesOf (dumps j) ++ [0]).length - 1)) := by
  have hbom : skipUtf8Bom (bytesOf (dumps j) ++ [0]) = 0 := by
    obtain ⟨b, v, hb, -⟩ := solid_dumps j
    have hne : 0xEF#8 ≠ b := (printable_bytes_dumps j b (hb ▸ List.mem_cons_self)).2
    rw [skipUtf8Bom, hb, List.cons_append, List.isPrefixOf, beq_false_of_ne hne, Bool.false_and,
      if_neg fun h => Bool.false_ne_true h.2]
  have hskip : bufferSkipWhitespace (bytesOf (dumps j) ++ [0]) 0 = 0 := (solid_dumps j).skip (List.prefix_refl _)
  rw [cJsonParse, cString_bytesOf_dumps]
  simp only [hbom, hskip]
  rfl

theorem cJsonParse_shallow {j : Json ℤ} (hshort : ShortNumbers j) (h : (encode j).depth ≤ cJsonNestingLimit) :
    cJsonParse (bytesOf (dumps j)) = some (.ok (encode j)) := by
  obtain ⟨hyes, -⟩ := consumes_dumps j hshort cJsonNestingLimit 0 0 (by decide) (List.prefix_refl _)
  rw [cJsonParse_start, hyes (encode j) (if_pos h)]
  rfl

theorem cJsonParse_deep {j : Json ℤ} (hshort : ShortNumbers j) (h : ¬ (encode j).depth ≤ cJsonNestingLimit) :
    ∃ position, cJsonParse (bytesOf (dumps j)) = some (.error position) := by
  obtain ⟨-, hno⟩ := consumes_dumps j hshort cJsonNestingLimit 0 0 (by decide) (List.prefix_refl _)
  obtain ⟨q, hq⟩ := hno (if_neg h)
  rw [cJsonParse_start, hq]
  exact ⟨_, rfl⟩

/-- **Trees are read back from their texts**, if they are nested no deeper than the limit; the others are refused. -/
theorem cJsonParse_dumps {j : Json ℤ} (hshort : ShortNumbers j) :
    ((encode j).depth ≤ cJsonNestingLimit → cJsonParse (bytesOf (dumps j)) = some (.ok (encode j))) ∧
      (cJsonNestingLimit < (encode j).depth → ∃ position, cJsonParse (bytesOf (dumps j)) = some (.error position)) :=
  ⟨cJsonParse_shallow hshort, fun h => cJsonParse_deep hshort (not_le.2 h)⟩

theorem cJsonParse_dumps_size : cJsonParse (bytesOf (dumps (.obj [("size".toList, .num 2)]))) =
    some (.ok (encode (.obj [("size".toList, .num 2)]))) :=
  have hshort : ShortNumbers (.obj [("size".toList, .num 2)]) := List.forall_mem_singleton.2 (by decide)
  (cJsonParse_dumps hshort).1 (by decide)

end ArionDp
