import Mathlib.Tactic.Common

/-!
# Stateful programs with exceptions

A program takes a state to a result or an exception, and to a state in either case: an exception
keeps the effects made before it. A triple has one postcondition for the result and one for
exceptions.

* `Prog`, its monad, `raise`, `tryExcept` and the loop `forEach`;
* `Returns`: partial correctness of the pure computations in between;
* `Triple.bind`, `Triple.tryExcept`, **`Triple.forEach`**, `Triple.foldlM`: the rules, one for each
  construct;
* `Keeps`: the triples with one assertion throughout, with the rule **`Keeps.frame`**;
* `Follows`: a program does on a part of its state what another one does, with a rule for each construct.
-/

namespace Py

variable {ε σ α β : Type}

/-- A program with states `σ` and exceptions `ε`. -/
def Prog (ε σ α : Type) := σ → Except ε α × σ

/-- Run `c`, then `f` on its result. -/
def Prog.bind (c : Prog ε σ α) (f : α → Prog ε σ β) : Prog ε σ β := fun s =>
  match c s with
  | (.ok a, t) => f a t
  | (.error e, t) => (.error e, t)

instance : Monad (Prog ε σ) where
  pure a := fun s => (.ok a, s)
  bind := Prog.bind

/-- Read the state. -/
def getState : Prog ε σ σ := fun s => (.ok s, s)

/-- Change the state. -/
def modifyState (f : σ → σ) : Prog ε σ Unit := fun s => (.ok (), f s)

/-- Raise an exception. -/
def raise (e : ε) : Prog ε σ α := fun s => (.error e, s)

/-- A pure computation that may raise. -/
def ofExcept (r : Except ε α) : Prog ε σ α := fun s => (r, s)

/-- `try: c except …: h`, where `h` is `none` for the exceptions that pass. -/
def tryExcept (c : Prog ε σ α) (h : ε → Option (Prog ε σ α)) : Prog ε σ α := fun s =>
  match c s with
  | (.ok a, t) => (.ok a, t)
  | (.error e, t) => match h e with
    | some d => d t
    | none => (.error e, t)

/-- `for a in as: f(a)` -/
def forEach (f : α → Prog ε σ Unit) : List α → Prog ε σ Unit
  | [] => pure ()
  | a :: as => do
    f a
    forEach f as

/-- **Hoare triple**: from a state with `P`, a result satisfies `Q` and an exception `E`. -/
def Triple (P : σ → Prop) (c : Prog ε σ α) (Q : α → σ → Prop) (E : ε → σ → Prop) : Prop :=
  ∀ s, P s → match c s with
    | (.ok a, t) => Q a t
    | (.error e, t) => E e t

/-- **Partial correctness**: a result of a pure computation satisfies `P`. -/
def Returns (x : Except ε α) (P : α → Prop) : Prop := ∀ a, x = .ok a → P a

/-! ## Runs from a state -/

section Eval

variable (s : σ)

@[simp] theorem pure_run (a : α) : (pure a : Prog ε σ α) s = (.ok a, s) := rfl

@[simp] theorem getState_run : (getState : Prog ε σ σ) s = (.ok s, s) := rfl

@[simp] theorem modifyState_run (f : σ → σ) : (modifyState f : Prog ε σ Unit) s = (.ok (), f s) := rfl

@[simp] theorem raise_run (e : ε) : (raise e : Prog ε σ α) s = (.error e, s) := rfl

@[simp] theorem ofExcept_run (r : Except ε α) : (ofExcept r : Prog ε σ α) s = (r, s) := rfl

theorem bind_run (c : Prog ε σ α) (f : α → Prog ε σ β) : (c >>= f) s = match c s with
    | (.ok a, t) => f a t
    | (.error e, t) => (.error e, t) := rfl

end Eval

/-! ## Pure computations -/

section Returns

variable {P Q : α → Prop} {R : β → Prop}

theorem Returns.pure {a : α} (h : P a) : Returns (pure a : Except ε α) P := by
  intro b hb
  cases hb
  exact h

theorem Returns.error {e : ε} : Returns (.error e) P := by
  intro b hb
  cases hb

theorem Returns.bind {x : Except ε α} {f : α → Except ε β} (hx : Returns x P)
    (hf : ∀ a, P a → Returns (f a) R) : Returns (x >>= f) R := by
  intro b hb
  cases x with
  | error e => cases hb
  | ok a => exact hf a (hx a rfl) b hb

/-- Steps of a computation that has a result. -/
theorem bind_eq_ok {x : Except ε α} {f : α → Except ε β} {b : β} :
    x >>= f = .ok b ↔ ∃ a, x = .ok a ∧ f a = .ok b := by
  cases x with
  | error e => exact ⟨fun h => (nomatch h), fun ⟨_, h, _⟩ => (nomatch h)⟩
  | ok a => exact ⟨fun h => ⟨a, rfl, h⟩, fun ⟨_, ha, h⟩ => by cases ha; exact h⟩

theorem exists_ok_of_isOk {x : Except ε α} (h : x.isOk = true) : ∃ a, x = .ok a := by
  cases x with
  | error e => cases h
  | ok a => exact ⟨a, rfl⟩

theorem Returns.trivial (x : Except ε α) : Returns x fun _ => True := fun _ _ => True.intro

theorem Returns.ite {p : Prop} [Decidable p] {x y : Except ε α} (hx : p → Returns x P)
    (hy : ¬ p → Returns y P) : Returns (if p then x else y) P := by
  split_ifs with h
  · exact hx h
  · exact hy h

/-- A loop whose body keeps an invariant. -/
theorem Returns.foldlM {f : α → β → Except ε α} (h : ∀ a b, P a → Returns (f a b) P) (l : List β)
    {a : α} (ha : P a) : Returns (l.foldlM f a) P := by
  induction l generalizing a with
  | nil => exact Returns.pure ha
  | cons b l ih =>
    rw [List.foldlM_cons]
    exact Returns.bind (h a b ha) fun a' ha' => ih ha'

/-- A result for each item. -/
theorem length_mapM {f : α → Except ε β} {l : List α} :
    Returns (l.mapM f) fun bs => bs.length = l.length := by
  induction l with
  | nil => exact Returns.pure rfl
  | cons a l ih =>
    rw [List.mapM_cons]
    refine (Returns.trivial _).bind fun b _ => Returns.bind ih fun bs hbs => Returns.pure ?_
    rw [List.length_cons, List.length_cons, hbs]

end Returns

/-! ## Rules -/

section Rules

variable {P P' : σ → Prop} {Q Q' : α → σ → Prop} {R : β → σ → Prop} {E E' : ε → σ → Prop}

theorem Triple.conseq {c : Prog ε σ α} (h : Triple P c Q E) (hP : ∀ s, P' s → P s)
    (hQ : ∀ a s, Q a s → Q' a s) (hE : ∀ e s, E e s → E' e s) : Triple P' c Q' E' := by
  intro s hs
  have hc := h s (hP s hs)
  revert hc
  rcases c s with ⟨_ | _, t⟩
  · exact hE _ t
  · exact hQ _ t

theorem Triple.pre {c : Prog ε σ α} (h : Triple P c Q E) (hP : ∀ s, P' s → P s) : Triple P' c Q E :=
  h.conseq hP (fun _ _ hs => hs) fun _ _ hs => hs

theorem Triple.post {c : Prog ε σ α} (h : Triple P c Q E) (hQ : ∀ a s, Q a s → Q' a s) :
    Triple P c Q' E := h.conseq (fun _ hs => hs) hQ fun _ _ hs => hs

/-- What holds after an exception implies what is wanted there. -/
theorem Triple.exc {c : Prog ε σ α} (h : Triple P c Q E) (hE : ∀ e s, E e s → E' e s) :
    Triple P c Q E' := h.conseq (fun _ hs => hs) (fun _ _ hs => hs) hE

/-- What holds after a program, whether it returns or raises. -/
theorem Triple.final {c : Prog ε σ α} {I : σ → Prop} (h : Triple P c (fun _ => I) fun _ => I) {s : σ}
    (hs : P s) : I (c s).2 := by
  have hc := h s hs
  revert hc
  rcases c s with ⟨_ | _, t⟩
  · exact id
  · exact id

/-- What holds of a program that has returned. -/
theorem Triple.of_isOk {c : Prog ε σ α} (h : Triple P c Q E) {s : σ} (hs : P s) (hok : (c s).1.isOk = true) :
    ∃ a t, c s = (.ok a, t) ∧ Q a t := by
  have hc := h s hs
  revert hok hc
  rcases c s with ⟨_ | a, t⟩
  · exact fun hok => Bool.noConfusion hok
  · exact fun _ hc => ⟨a, t, rfl, hc⟩

theorem Triple.pure {a : α} (h : ∀ s, P s → Q a s) : Triple P (pure a : Prog ε σ α) Q E := h

theorem Triple.raise {e : ε} (h : ∀ s, P s → E e s) : Triple P (raise e : Prog ε σ α) Q E := h

theorem Triple.getState : Triple P (getState : Prog ε σ σ) (fun a s => a = s ∧ P s) E :=
  fun _ hs => ⟨rfl, hs⟩

theorem Triple.modifyState {f : σ → σ} {Q : Unit → σ → Prop} (h : ∀ s, P s → Q () (f s)) :
    Triple P (modifyState f : Prog ε σ Unit) Q E := h

theorem Triple.ofExcept {r : Except ε α} (hQ : ∀ a s, r = .ok a → P s → Q a s)
    (hE : ∀ e s, r = .error e → P s → E e s) : Triple P (ofExcept r) Q E := by
  intro s hs
  cases r with
  | ok a => exact hQ a s rfl hs
  | error e => exact hE e s rfl hs

theorem Triple.bind {c : Prog ε σ α} {f : α → Prog ε σ β} (hc : Triple P c Q E)
    (hf : ∀ a, Triple (Q a) (f a) R E) : Triple P (c >>= f) R E := by
  intro s hs
  change match Prog.bind c f s with
    | (.ok a, t) => R a t
    | (.error e, t) => E e t
  have h := hc s hs
  unfold Prog.bind
  revert h
  rcases c s with ⟨_ | a, t⟩
  · exact id
  · exact hf a t

theorem Triple.bind_assoc {γ : Type} {c : Prog ε σ γ} {f : γ → Prog ε σ α} {g : α → Prog ε σ β}
    (h : Triple P ((c >>= f) >>= g) R E) : Triple P (c >>= fun a => f a >>= g) R E := by
  have heq : ((c >>= f) >>= g : Prog ε σ β) = c >>= fun a => f a >>= g := by
    funext s
    change Prog.bind (Prog.bind c f) g s = Prog.bind c (fun a => Prog.bind (f a) g) s
    unfold Prog.bind
    rcases c s with ⟨_ | _, _⟩ <;> rfl
  rwa [heq] at h

/-- A pure computation whose result is known. -/
theorem Triple.bind_ok {r : Except ε α} {a : α} {f : α → Prog ε σ β} (h : r = .ok a)
    (hf : Triple P (f a) R E) : Triple P (Py.ofExcept r >>= f) R E := by
  subst h
  exact hf

/-- A pure computation that only matters for its exceptions. -/
theorem Triple.bind_ofExcept {r : Except ε α} {f : α → Prog ε σ β} (hf : ∀ a, r = .ok a →
    Triple P (f a) R E) (hE : ∀ e s, r = .error e → P s → E e s) :
    Triple P (Py.ofExcept r >>= f) R E := by
  cases r with
  | ok a => exact hf a rfl
  | error e => exact fun s hs => hE e s rfl hs

/-- What the precondition says of other things than the state. -/
theorem Triple.assume {p : Prop} {c : Prog ε σ α} (hp : ∀ s, P s → p) (h : p → Triple P c Q E) :
    Triple P c Q E :=
  fun s hs => h (hp s hs) s hs

/-- The state before the program has a name. -/
theorem Triple.named {c : Prog ε σ α} (h : ∀ s, P s → Triple (fun t => t = s) c Q E) : Triple P c Q E :=
  fun s hs => h s hs s rfl

/-- **Frame**: what the program keeps holds with its postcondition. -/
theorem Triple.frame {c : Prog ε σ α} {I : σ → Prop} (h : Triple P c Q E)
    (hI : Triple I c (fun _ => I) fun _ => I) :
    Triple (fun s => P s ∧ I s) c (fun a s => Q a s ∧ I s) fun e s => E e s ∧ I s := by
  intro s hs
  have hc := h s hs.1
  have hk := hI s hs.2
  revert hc hk
  rcases c s with ⟨_ | _, t⟩
  · exact And.intro
  · exact And.intro

theorem Triple.ite {p : Prop} [Decidable p] {c d : Prog ε σ α} (hc : p → Triple P c Q E)
    (hd : ¬ p → Triple P d Q E) : Triple P (if p then c else d) Q E := by
  split_ifs with h
  · exact hc h
  · exact hd h

theorem Triple.tryExcept {c : Prog ε σ α} {h : ε → Option (Prog ε σ α)}
    (hc : Triple P c Q E') (hh : ∀ e, match h e with
      | some d => Triple (E' e) d Q E
      | none => ∀ s, E' e s → E e s) : Triple P (tryExcept c h) Q E := by
  intro s hs
  have hr := hc s hs
  unfold Py.tryExcept
  revert hr
  rcases c s with ⟨e | a, t⟩
  · intro hr
    have he := hh e
    dsimp only at hr ⊢
    cases hhe : h e with
    | none =>
      rw [hhe] at he
      exact he t hr
    | some d =>
      rw [hhe] at he
      exact he t hr
  · exact id

/-- **Loop rule**: the invariant speaks of the items done so far and of those to come. -/
theorem Triple.forEach {f : α → Prog ε σ Unit} (I : List α → List α → σ → Prop)
    (h : ∀ done a todo, Triple (I done (a :: todo)) (f a) (fun _ => I (done ++ [a]) todo) E)
    (done todo : List α) :
    Triple (I done todo) (forEach f todo) (fun _ => I (done ++ todo) []) E := by
  induction todo generalizing done with
  | nil =>
    refine Triple.pure fun s hs => ?_
    rwa [List.append_nil]
  | cons a as ih =>
    refine Triple.bind (h done a as) fun _ => ?_
    have := ih (done ++ [a])
    rwa [List.append_assoc] at this

/-- **Loop rule**: the invariant speaks of the items done so far. -/
theorem Triple.forEach_done {f : α → Prog ε σ Unit} (I : List α → σ → Prop) {as : List α}
    (h : ∀ done, ∀ a ∈ as, Triple (I done) (f a) (fun _ => I (done ++ [a])) E) :
    Triple (I []) (Py.forEach f as) (fun _ => I as) E := by
  have hloop := Triple.forEach (E := E) (f := f)
    (fun done todo s => (∀ a ∈ todo, a ∈ as) ∧ I done s) (fun done a todo => ?_) [] as
  · exact hloop.conseq (fun s hs => ⟨fun _ ha => ha, hs⟩) (fun _ _ hs => hs.2) fun _ _ hs => hs
  · refine Triple.assume (fun s hs => hs.1) fun hmem => ?_
    exact (h done a (hmem a (List.mem_cons_self ..))).conseq (fun s hs => hs.2)
      (fun _ s hs => ⟨fun b hb => hmem b (List.mem_cons_of_mem _ hb), hs⟩) fun _ _ hs => hs

/-- A loop whose body keeps an invariant. -/
theorem Triple.forEach_inv {f : α → Prog ε σ Unit} {I : σ → Prop}
    (h : ∀ a, Triple I (f a) (fun _ => I) E) (as : List α) :
    Triple I (Py.forEach f as) (fun _ => I) E :=
  Triple.forEach (fun _ _ => I) (fun _ a _ => h a) [] as

/-- A program that raises at its first step. -/
theorem Triple.bind_raises {c : Prog ε σ α} {f : α → Prog ε σ β}
    (h : Triple P c (fun _ _ => False) E) : Triple P (c >>= f) R E :=
  Triple.bind h fun _ _ hs => hs.elim

/-- A loop with a round that raises. -/
theorem Triple.forEach_raises {f : α → Prog ε σ Unit} {I : σ → Prop}
    (h : ∀ a, Triple I (f a) (fun _ => I) E) {a : α} (ha : Triple I (f a) (fun _ _ => False) E)
    {as : List α} (hmem : a ∈ as) : Triple I (Py.forEach f as) (fun _ _ => False) E := by
  induction as with
  | nil => exact absurd hmem List.not_mem_nil
  | cons b as ih =>
    rcases List.mem_cons.1 hmem with rfl | hmem
    · exact Triple.bind_raises ha
    · exact Triple.bind (h b) fun _ => ih hmem

/-- **Loop rule** for loops with an accumulator. -/
theorem Triple.foldlM {f : β → α → Prog ε σ β} (I : List α → List α → β → σ → Prop)
    (h : ∀ done a todo b, Triple (I done (a :: todo) b) (f b a) (I (done ++ [a]) todo) E)
    (done todo : List α) (b : β) :
    Triple (I done todo b) (todo.foldlM f b) (I (done ++ todo) []) E := by
  induction todo generalizing done b with
  | nil =>
    refine Triple.pure fun s hs => ?_
    rwa [List.append_nil]
  | cons a as ih =>
    refine Triple.bind (h done a as b) fun b' => ?_
    have := ih (done ++ [a]) b'
    rwa [List.append_assoc] at this

end Rules

/-- A loop of changes of the state. -/
theorem forEach_modifyState (f : α → σ → σ) (as : List α) (s : σ) :
    (forEach (fun a => modifyState (f a)) as : Prog ε σ Unit) s =
      (.ok (), as.foldl (fun s a => f a s) s) := by
  induction as generalizing s with
  | nil => rfl
  | cons a as ih => exact ih (f a s)

/-! ## One assertion throughout -/

/-- The program keeps an assertion, whether it returns or raises. -/
def Keeps (I : σ → Prop) (c : Prog ε σ α) : Prop := Triple I c (fun _ => I) fun _ => I

section Keeps

variable {I : σ → Prop}

theorem Keeps.bind {c : Prog ε σ α} {f : α → Prog ε σ β} (hc : Keeps I c) (hf : ∀ a, Keeps I (f a)) :
    Keeps I (c >>= f) := Triple.bind hc hf

theorem Keeps.pure (a : α) : Keeps I (pure a : Prog ε σ α) := fun _ hs => hs

theorem Keeps.raise (e : ε) : Keeps I (raise e : Prog ε σ α) := fun _ hs => hs

theorem Keeps.getState : Keeps I (getState : Prog ε σ σ) := fun _ hs => hs

theorem Keeps.modifyState {f : σ → σ} (h : ∀ s, I s → I (f s)) :
    Keeps I (modifyState f : Prog ε σ Unit) := h

theorem Keeps.ofExcept (r : Except ε α) : Keeps I (ofExcept r : Prog ε σ α) :=
  Triple.ofExcept (fun _ _ _ h => h) fun _ _ _ h => h

theorem Keeps.tryExcept {c : Prog ε σ α} {h : ε → Option (Prog ε σ α)} (hc : Keeps I c)
    (hh : ∀ e, ∀ d ∈ h e, Keeps I d) : Keeps I (tryExcept c h) := by
  refine Triple.tryExcept hc fun e => ?_
  cases he : h e with
  | none => exact fun _ hs => hs
  | some d => exact hh e d he

theorem Keeps.forEach {f : α → Prog ε σ Unit} (h : ∀ a, Keeps I (f a)) (as : List α) :
    Keeps I (forEach f as) := Triple.forEach_inv h as

/-- **Frame**: a program that keeps part of the state keeps what depends on that part alone. -/
theorem Keeps.frame {γ : Type} {f : σ → γ} {c : Prog ε σ α} (h : ∀ v, Keeps (fun s => f s = v) c)
    (hI : ∀ s t, f t = f s → I s → I t) : Keeps I c := by
  intro s hs
  have hc := h (f s) s rfl
  revert hc
  rcases c s with ⟨_ | _, t⟩
  · exact fun ht => hI s t ht hs
  · exact fun ht => hI s t ht hs

end Keeps

/-! ## One program on a part of the state of another -/

/-- On the part `π` of its state, `c` does what `d` does. -/
def Follows {τ : Type} (π : σ → τ) (c : Prog ε σ α) (d : Prog ε τ α) : Prop :=
  ∀ s, ((c s).1, π (c s).2) = d (π s)

section Follows

variable {τ : Type} {π : σ → τ}

theorem Follows.pure (a : α) : Follows π (pure a : Prog ε σ α) (pure a) := fun _ => rfl

theorem Follows.bind {c : Prog ε σ α} {d : Prog ε τ α} {f : α → Prog ε σ β} {g : α → Prog ε τ β}
    (hc : Follows π c d) (hf : ∀ a, Follows π (f a) (g a)) : Follows π (c >>= f) (d >>= g) := by
  intro s
  have h := hc s
  rw [bind_run, bind_run, ← h]
  rcases c s with ⟨_ | a, t⟩
  · rfl
  · exact hf a t

theorem Follows.forEach {f : α → Prog ε σ Unit} {g : α → Prog ε τ Unit} (h : ∀ a, Follows π (f a) (g a))
    (as : List α) : Follows π (forEach f as) (forEach g as) := by
  induction as with
  | nil => exact .pure ()
  | cons a as ih => exact .bind (h a) fun _ => ih

end Follows

end Py
