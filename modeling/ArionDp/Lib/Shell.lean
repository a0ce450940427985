import Mathlib.Tactic.Common
import Mathlib.Data.List.Basic

/-!
# Words of a shell command

How a POSIX shell splits a simple command into words: blanks end a word, and quotes keep characters from being blanks,
quotes or special.

* `lex`, `words`: the words of a command, `none` if it is more than literal words;
* **`lex_word`**, **`lex_single`**, **`lex_double`**: a plain word, and quoted texts.
-/

namespace Shell

/-- How the next character of a word is quoted; outside of quotes and in double quotes a backslash may be in front. -/
inductive Quoting
  | bare
  | bareBackslash
  | single
  | double
  | doubleBackslash

/-- A character that starts an operator, an expansion, a pattern or, at the start of a word, a comment. -/
def special (atStart : Bool) (c : Char) : Bool :=
  c ∈ "|&;<>()$*?[\n".toList || c.toNat == 96 || (atStart && (c == '#' || c == '~'))

/-- A character that a backslash quotes in double quotes. -/
def escapable (c : Char) : Bool := c == '$' || c.toNat == 96 || c == '"' || c == '\\'

/-- A word that has started, with another character. -/
def push (word : Option (List Char)) (c : Char) : Option (List Char) := some (word.getD [] ++ [c])

/-- The words from a position on; `word` is the one that has started. -/
def lex : Quoting → Option (List Char) → List Char → Option (List (List Char))
  | .bare, word, [] => some word.toList
  | .bare, word, c :: s =>
    if c = '\\' then lex .bareBackslash word s
    else if c = ' ' ∨ c = '\t' then (lex .bare none s).map (word.toList ++ ·)
    else if c = '\'' then lex .single (some (word.getD [])) s
    else if c = '"' then lex .double (some (word.getD [])) s
    else if special word.isNone c then none
    else lex .bare (push word c) s
  | .bareBackslash, word, c :: s => if c = '\n' then lex .bare word s else lex .bare (push word c) s
  | .single, word, c :: s => if c = '\'' then lex .bare word s else lex .single (push word c) s
  | .double, word, c :: s =>
    if c = '\\' then lex .doubleBackslash word s
    else if c = '"' then lex .bare word s
    else if c = '$' ∨ c.toNat = 96 then none
    else lex .double (push word c) s
  | .doubleBackslash, word, c :: s =>
    if c = '\n' then lex .double word s
    else if escapable c then lex .double (push word c) s
    else lex .double (push (push word '\\') c) s
  | _, _, [] => none

/-- The words that a shell takes for itself in front of a command. -/
def reserved : List (List Char) :=
  ["!", "\x7b", "\x7d", "case", "do", "done", "elif", "else", "esac", "fi", "for", "if", "in", "then", "until",
    "while"].map String.toList

/-- The words of a simple command without assignments. -/
def words (s : List Char) : Option (List (List Char)) :=
  (lex .bare none s).filter fun ws => ws.head?.all fun w => w ∉ reserved && '=' ∉ w

/-- A character that stands for itself. -/
def plain (c : Char) : Bool := c.isAlphanum || c ∈ "/_-.:,{}@%+".toList

theorem plain_spec {c : Char} (h : plain c = true) : c ≠ '\\' ∧ ¬ (c = ' ' ∨ c = '\t') ∧ c ≠ '\'' ∧ c ≠ '"' ∧
    c ≠ '$' ∧ c.toNat ≠ 96 ∧ ∀ b, special b c = false := by
  have hne {d : Char} (hd : plain d = false) : c ≠ d := fun hcd => by
    rw [← hcd, h] at hd
    exact absurd hd (by decide)
  have htick : c.toNat ≠ 96 := fun hc => by
    rw [← Char.ofNat_toNat c, hc] at h
    exact absurd h (by decide)
  refine ⟨hne rfl, not_or.2 ⟨hne rfl, hne rfl⟩, hne rfl, hne rfl, hne rfl, htick, fun b => ?_⟩
  have hlist : c ∉ "|&;<>()$*?[\n".toList := by
    have hall : ("|&;<>()$*?[\n".toList.all fun d => plain d == false) = true := by decide
    exact fun hc => hne (beq_iff_eq.1 (List.all_eq_true.1 hall c hc)) rfl
  rw [special, decide_eq_false hlist, beq_eq_false_iff_ne.2 htick, beq_eq_false_iff_ne.2 (hne (d := '#') rfl),
    beq_eq_false_iff_ne.2 (hne (d := '~') rfl)]
  cases b <;> rfl

/-- A plain character continues a word, or starts one. -/
theorem lex_plain {c : Char} (h : plain c = true) (word : Option (List Char)) (s : List Char) :
    lex .bare word (c :: s) = lex .bare (push word c) s := by
  obtain ⟨h1, h2, h3, h4, -, -, h5⟩ := plain_spec h
  rw [lex, if_neg h1, if_neg h2, if_neg h3, if_neg h4, h5, if_neg Bool.false_ne_true]

theorem lex_space (word : Option (List Char)) (s : List Char) :
    lex .bare word (' ' :: s) = (lex .bare none s).map (word.toList ++ ·) := rfl

/-- Plain characters in a word that has started. -/
theorem lex_append {w : List Char} (hw : ∀ c ∈ w, plain c = true) (v s : List Char) :
    lex .bare (some v) (w ++ s) = lex .bare (some (v ++ w)) s := by
  induction w generalizing v with
  | nil => rw [List.append_nil, List.nil_append]
  | cons c w ih =>
    rw [List.cons_append, lex_plain (hw c List.mem_cons_self), push,
      ih (fun d hd => hw d (List.mem_cons_of_mem c hd)), Option.getD_some, List.append_assoc, List.singleton_append]

/-- **A plain word**, and what is behind it. -/
theorem lex_start {w : List Char} (hw : ∀ c ∈ w, plain c = true) (hne : w ≠ []) (s : List Char) :
    lex .bare none (w ++ s) = lex .bare (some w) s := by
  obtain ⟨c, w, rfl⟩ := List.exists_cons_of_ne_nil hne
  rw [List.cons_append, lex_plain (hw c List.mem_cons_self), push,
    lex_append (fun d hd => hw d (List.mem_cons_of_mem c hd))]
  rfl

theorem lex_word {w : List Char} (hw : ∀ c ∈ w, plain c = true) (hne : w ≠ []) (s : List Char) :
    lex .bare none (w ++ ' ' :: s) = (lex .bare none s).map (w :: ·) := by
  rw [lex_start hw hne, lex_space]
  rfl

/-- **A text in single quotes** is kept as it is. -/
theorem lex_single {t : List Char} (ht : '\'' ∉ t) (v s : List Char) :
    lex .single (some v) (t ++ '\'' :: s) = lex .bare (some (v ++ t)) s := by
  induction t generalizing v with
  | nil => rw [List.nil_append, List.append_nil, lex, if_pos rfl]
  | cons c t ih =>
    obtain ⟨hc, ht⟩ := not_or.1 (mt List.mem_cons.2 ht)
    rw [List.cons_append, lex, if_neg (Ne.symm hc), push, ih ht, Option.getD_some, List.append_assoc,
      List.singleton_append]

theorem lex_quoted {t : List Char} (ht : '\'' ∉ t) (s : List Char) :
    lex .bare none ('\'' :: (t ++ '\'' :: s)) = lex .bare (some t) s := lex_single ht [] s

/-- **Plain characters in double quotes**, and the quotes around them, which are removed. -/
theorem lex_double {t : List Char} (ht : ∀ c ∈ t, plain c = true) (v s : List Char) :
    lex .bare (some v) ('"' :: (t ++ '"' :: s)) = lex .bare (some (v ++ t)) s := by
  have hin (u : List Char) : lex .double (some u) (t ++ '"' :: s) = lex .bare (some (u ++ t)) s := by
    induction t generalizing u with
    | nil =>
      rw [List.nil_append, List.append_nil, lex, if_neg (by decide), if_pos rfl]
    | cons c t ih =>
      obtain ⟨h1, -, -, h4, h5, h6, -⟩ := plain_spec (ht c List.mem_cons_self)
      rw [List.cons_append, lex, if_neg h1, if_neg h4, if_neg (not_or.2 ⟨h5, h6⟩), push,
        ih (fun d hd => ht d (List.mem_cons_of_mem c hd)), Option.getD_some, List.append_assoc, List.singleton_append]
  exact hin v

/-- A word with a part in double quotes, and what is behind the blank after it. -/
def partly (v t w s : List Char) : List Char := v ++ '"' :: (t ++ '"' :: (w ++ ' ' :: s))

/-- **A word with a part in double quotes** loses them. -/
theorem lex_partly {v t w : List Char} (hv : ∀ c ∈ v, plain c = true) (ht : ∀ c ∈ t, plain c = true)
    (hw : ∀ c ∈ w, plain c = true) (s : List Char) :
    lex .bare none (partly v t w s) = (lex .bare none s).map ((v ++ t ++ w) :: ·) := by
  have hstart : lex .bare none (partly v t w s) = lex .bare (some v) ('"' :: (t ++ '"' :: (w ++ ' ' :: s))) := by
    cases v with
    | nil => rfl
    | cons c v => exact lex_start hv (List.cons_ne_nil c v) _
  rw [hstart, lex_double ht, lex_append hw, lex_space]
  rfl

end Shell
