import ArionDp.Lib.Runs
import ArionDp.Manager.World

/-!
# Gateway clusters and the active one

The handlers of `zgcs.py`. `activeZgc` of `settings.py` is a copy of a row of `Zgc`, which the other handlers
read and which these ones have to keep up to date.

* `JsonValue`, `column`: the values of a request, and what a column of the database makes of them;
* `ZgcTable`: the rows of `Zgc`, whose ids and names are unique;
* `allZgcsPost`, `singleZgcPut`, `singleZgcDelete`, `setUpClusterFromHazelcast`: the handlers;
* `CopyCurrent`, `ZgcCall.Faithful`: the copy is that of a row, and the requests that leave it so;
* **`zgcs_mirrored_iff`**: the copy is right in every state of a run exactly if all its requests are such.
-/

namespace ArionDp

open Py Runs

/-! ## Values and columns -/

/-- A value of a request. The database makes a text of numbers, and of some of the `other` values. -/
inductive JsonValue (V : Type)
  | null
  | int (n : ℤ)
  | text (t : Text)
  | other (v : V)
  deriving DecidableEq

/-- A text in a column of limited length, where only blanks can be cut off. -/
def fitString (limit : ℕ) (t : Text) : Option Text :=
  if t.length ≤ limit then some t
  else if (t.drop limit).all (· = ' ') then some (t.take limit) else none

section Columns

variable {V : Type} (cast : V → Option Text)

/-- The text that the database makes of a value. -/
def JsonValue.toText : JsonValue V → Option (Option Text)
  | .null => some none
  | .int n => some (some (PyText.pyStr n))
  | .text t => some (some t)
  | .other v => (cast v).map some

/-- What a column stores. -/
def column (limit : Option ℕ) (v : JsonValue V) : Option (Option Text) :=
  match v.toText cast with
  | none => none
  | some none => some none
  | some (some t) => match limit with
    | none => some (some t)
    | some n => (fitString n t).map some

/-- A column that is not nullable. -/
def columnNotNull (limit : ℕ) (v : JsonValue V) : Option Text := (column cast (some limit) v).join

/-- A column with a default, which is for `None` as well. -/
def columnDefault (limit : Option ℕ) (default : Text) (v : JsonValue V) : Option Text :=
  (column cast limit v).map fun t => t.getD default

end Columns

/-! ## Rows -/

/-- A row of `Zgc` -/
structure ZgcRecord where
  zgcId : Text
  name : Text
  description : Option Text
  ipStart : Text
  ipEnd : Text
  portIbo : Option Text
  overlayType : Option Text
  deriving DecidableEq

/-- The columns that a PUT writes. -/
structure ZgcChange where
  description : Option Text
  ipStart : Text
  ipEnd : Text
  portIbo : Option Text
  overlayType : Option Text
  deriving DecidableEq

/-- A changed row. -/
def ZgcRecord.change (r : ZgcRecord) (c : ZgcChange) : ZgcRecord :=
  { r with
    description := c.description
    ipStart := c.ipStart
    ipEnd := c.ipEnd
    portIbo := c.portIbo
    overlayType := c.overlayType }

/-- **The rows of `Zgc`**, with their unique columns. -/
structure ZgcTable where
  rows : List ZgcRecord
  ids : (rows.map fun r => r.zgcId).Nodup
  names : (rows.map fun r => r.name).Nodup

namespace ZgcTable

/-- No rows. -/
def empty : ZgcTable := ⟨[], List.nodup_nil, List.nodup_nil⟩

variable (t : ZgcTable)

/-- Add a row. -/
def insert (r : ZgcRecord) : Option ZgcTable :=
  if h : ((t.rows ++ [r]).map fun r => r.zgcId).Nodup ∧ ((t.rows ++ [r]).map fun r => r.name).Nodup then
    some ⟨t.rows ++ [r], h.1, h.2⟩
  else none

/-- The row with an id. -/
def get? (zgcId : Text) : Option ZgcRecord := t.rows.find? fun r => r.zgcId = zgcId

/-- Change the row with an id. -/
def update (zgcId : Text) (c : ZgcChange) : ZgcTable where
  rows := t.rows.map fun r => if r.zgcId = zgcId then r.change c else r
  ids := by
    rw [List.map_map]
    convert t.ids using 2
    funext r
    dsimp only [Function.comp]
    split_ifs <;> rfl
  names := by
    rw [List.map_map]
    convert t.names using 2
    funext r
    dsimp only [Function.comp]
    split_ifs <;> rfl

/-- Delete the row with an id. -/
def delete (zgcId : Text) : ZgcTable where
  rows := t.rows.filter fun r => r.zgcId ≠ zgcId
  ids := t.ids.sublist (List.filter_sublist.map _)
  names := t.names.sublist (List.filter_sublist.map _)

/-- `Zgc.query.first()`, which is any row -/
def first (n : ℕ) : Option ZgcRecord := t.rows[n % t.rows.length]?

end ZgcTable

/-! ## Requests -/

section Handlers

variable (V : Type)

/-- `activeZgc`, with the keys that are set -/
structure ActiveDict where
  zgcId : Option Text
  ipStart : Option (JsonValue V)
  ipEnd : Option (JsonValue V)
  portIbo : Option (JsonValue V)
  deriving DecidableEq

/-- The body of a request, with the fields that are in it; `others` if it has a key that `Zgc` refuses. -/
structure ZgcBody where
  name : Option (JsonValue V)
  description : Option (JsonValue V)
  ipStart : Option (JsonValue V)
  ipEnd : Option (JsonValue V)
  portIbo : Option (JsonValue V)
  overlayType : Option (JsonValue V)
  others : Bool
  deriving DecidableEq

/-- The rows of `Zgc`, and `activeZgc`. -/
structure ZgcState where
  zgcs : ZgcTable
  active : ActiveDict V

/-- A handler of `zgcs.py`. -/
abbrev ZgcReq := Py.Prog PyError (ZgcState V)

variable {V}

/-- `activeZgc = {}` -/
def ActiveDict.empty : ActiveDict V := ⟨none, none, none, none⟩

/-- `not bool(activeZgc)` -/
def ActiveDict.isEmpty (d : ActiveDict V) : Bool :=
  d.zgcId.isNone && d.ipStart.isNone && d.ipEnd.isNone && d.portIbo.isNone

/-- A nullable column in Python. -/
def JsonValue.ofColumn : Option Text → JsonValue V
  | none => .null
  | some t => .text t

/-- The copy of a row. -/
def ActiveDict.copy (r : ZgcRecord) : ActiveDict V :=
  ⟨some r.zgcId, some (.text r.ipStart), some (.text r.ipEnd), some (.ofColumn r.portIbo)⟩

/-- `post_data[key]` -/
def getItem (v : Option (JsonValue V)) : Except PyError (JsonValue V) :=
  match v with
  | none => .error .keyError
  | some v => .ok v

/-- `post_data.get(key)` -/
def getOrNull (v : Option (JsonValue V)) : JsonValue V := v.getD .null

variable (cast : V → Option Text)

/-- The row of a new ZGC. -/
def ZgcBody.row (zgcId : Text) (b : ZgcBody V) : Option ZgcRecord := do
  let name ← columnNotNull cast 128 (getOrNull b.name)
  let description ← column cast (some 255) (getOrNull b.description)
  let ipStart ← columnNotNull cast 16 (getOrNull b.ipStart)
  let ipEnd ← columnNotNull cast 16 (getOrNull b.ipEnd)
  let portIbo ← columnDefault cast none "8300".toList (getOrNull b.portIbo)
  let overlayType ← columnDefault cast (some 16) "vxlan".toList (getOrNull b.overlayType)
  pure ⟨zgcId, name, description, ipStart, ipEnd, some portIbo, some overlayType⟩

/-- The columns that a PUT writes: what is not in the body becomes `NULL`. -/
def ZgcBody.change (b : ZgcBody V) : Option ZgcChange := do
  let description ← column cast (some 255) (getOrNull b.description)
  let ipStart ← columnNotNull cast 16 (getOrNull b.ipStart)
  let ipEnd ← columnNotNull cast 16 (getOrNull b.ipEnd)
  let portIbo ← column cast none (getOrNull b.portIbo)
  let overlayType ← column cast (some 16) (getOrNull b.overlayType)
  pure ⟨description, ipStart, ipEnd, portIbo, overlayType⟩

/-- Add a row and commit; the database can refuse for other reasons too. -/
def dbAddZgc (refused : Bool) (row : Option ZgcRecord) : ZgcReq V ZgcRecord := do
  let s ← getState
  match row with
  | none => raise .integrityError
  | some r => match s.zgcs.insert r with
    | none => raise .integrityError
    | some t =>
      if refused then raise .integrityError
      else do
        modifyState fun s => { s with zgcs := t }
        pure r

/-- `all_zgcs`, a POST; `zgcId` is from `uuid4` -/
def allZgcsPost (zgcId : Text) (b : ZgcBody V) (refused : Bool) : ZgcReq V Unit := do
  if b.others then raise .typeError
  else do
    let _ ← dbAddZgc refused (b.row cast zgcId)
    let s ← getState
    if s.active.isEmpty then do
      modifyState fun s => { s with active := { s.active with zgcId := some zgcId } }
      let ipStart ← ofExcept (getItem b.ipStart)
      modifyState fun s => { s with active := { s.active with ipStart := some ipStart } }
      let ipEnd ← ofExcept (getItem b.ipEnd)
      modifyState fun s => { s with active := { s.active with ipEnd := some ipEnd } }
      let portIbo ← ofExcept (getItem b.portIbo)
      modifyState fun s => { s with active := { s.active with portIbo := some portIbo } }
    else pure ()

/-- `single_zgc`, a PUT -/
def singleZgcPut (zgcId : Text) (b : ZgcBody V) (refused : Bool) : ZgcReq V Unit := do
  let s ← getState
  match s.zgcs.get? zgcId with
  | none => raise .attributeError
  | some _ => match b.change cast with
    | none => raise .integrityError
    | some c =>
      if refused then raise .integrityError
      else modifyState fun s => { s with zgcs := s.zgcs.update zgcId c }

/-- `single_zgc`, a DELETE -/
def singleZgcDelete (zgcId : Text) (refused : Bool) (first : ℕ) : ZgcReq V Unit := do
  let s ← getState
  match s.zgcs.get? zgcId with
  | none => raise .attributeError
  | some _ =>
    if refused then raise .integrityError
    else do
      modifyState fun s => { s with zgcs := s.zgcs.delete zgcId }
      let s ← getState
      if s.active.zgcId = some zgcId then
        match s.zgcs.first first with
        | some r => modifyState fun s => { s with active := .copy r }
        | none => modifyState fun s => { s with active := .empty }
      else pure ()

/-- `ArionGatewayCluster` -/
structure ArionGatewayCluster where
  name : Option Text
  description : Option Text
  ipStart : Option Text
  ipEnd : Option Text
  portIbo : ℤ
  overlayType : Option Text
  deriving DecidableEq

/-- The attributes of the row for a cluster. -/
def ArionGatewayCluster.body (c : ArionGatewayCluster) : ZgcBody V where
  name := some (.ofColumn c.name)
  description := some (.ofColumn c.description)
  ipStart := some (.ofColumn c.ipStart)
  ipEnd := some (.ofColumn c.ipEnd)
  portIbo := some (.int c.portIbo)
  overlayType := some (.ofColumn c.overlayType)
  others := false

/-- `set_up_cluster_from_hazelcast`, which copies the row as it is stored -/
def setUpClusterFromHazelcast (zgcId : Text) (c : ArionGatewayCluster) (refused : Bool) : ZgcReq V Unit := do
  let r ← dbAddZgc refused (c.body.row cast zgcId)
  let s ← getState
  if s.active.isEmpty then modifyState fun s => { s with active := .copy r }
  else pure ()

/-- A request for gateway clusters, or a cluster from Hazelcast. -/
inductive ZgcCall (V : Type)
  | post (zgcId : Text) (b : ZgcBody V) (refused : Bool)
  | put (zgcId : Text) (b : ZgcBody V) (refused : Bool)
  | delete (zgcId : Text) (refused : Bool) (first : ℕ)
  | hazelcast (zgcId : Text) (c : ArionGatewayCluster) (refused : Bool)

/-- The state after a request, whether it returns or raises. -/
def ZgcCall.run : ZgcCall V → ZgcState V → ZgcState V
  | .post zgcId b refused, s => (allZgcsPost cast zgcId b refused s).2
  | .put zgcId b refused, s => (singleZgcPut cast zgcId b refused s).2
  | .delete zgcId refused first, s => (singleZgcDelete zgcId refused first s).2
  | .hazelcast zgcId c refused, s => (setUpClusterFromHazelcast cast zgcId c refused s).2

/-- **Requests as steps.** -/
def zgcStep (c : ZgcCall V) (s : ZgcState V) : Option (ZgcState V) := some (c.run cast s)

/-- An empty database. -/
def ZgcState.start : ZgcState V := ⟨.empty, .empty⟩

end Handlers

/-! ## The copy -/

section Copies

variable {V : Type}

/-- **`activeZgc` mirrors the database**: it is empty if there is no row, and else the copy of a row. -/
structure CopyCurrent (s : ZgcState V) : Prop where
  empty : s.active = .empty ↔ s.zgcs.rows = []
  copy : s.active ≠ .empty → ∃ r ∈ s.zgcs.rows, s.active = .copy r

/-- **A request that leaves the copy right.** A POST that finds no active ZGC and is accepted gives the
addresses and the port as the texts that are stored; a PUT of the active ZGC keeps them. -/
def ZgcCall.Faithful (cast : V → Option Text) : ZgcCall V → ZgcState V → Prop
  | .post zgcId b refused, s => s.active = .empty → refused = false → b.others = false →
    ∀ r ∈ b.row cast zgcId, b.ipStart = some (.text r.ipStart) ∧ b.ipEnd = some (.text r.ipEnd) ∧
      b.portIbo = some (.ofColumn r.portIbo)
  | .put zgcId b refused, s => refused = false → ∀ r ∈ s.zgcs.get? zgcId, s.active = .copy r →
    ∀ c ∈ b.change cast, c.ipStart = r.ipStart ∧ c.ipEnd = r.ipEnd ∧ c.portIbo = r.portIbo
  | .delete .., _ => True
  | .hazelcast .., _ => True

theorem ActiveDict.isEmpty_iff {d : ActiveDict V} : d.isEmpty = true ↔ d = .empty := by
  obtain ⟨zgcId, ipStart, ipEnd, portIbo⟩ := d
  simp [isEmpty, empty, and_assoc]

theorem ActiveDict.copy_ne_empty (r : ZgcRecord) : (copy r : ActiveDict V) ≠ .empty :=
  fun h => Option.some_ne_none _ (congrArg zgcId h)

theorem JsonValue.ofColumn_injective : Function.Injective (ofColumn : Option Text → JsonValue V) := by
  intro a b h
  cases a <;> cases b <;> cases h <;> rfl

theorem ActiveDict.copy_eq_iff {r r' : ZgcRecord} : (copy r : ActiveDict V) = copy r' ↔
    r.zgcId = r'.zgcId ∧ r.ipStart = r'.ipStart ∧ r.ipEnd = r'.ipEnd ∧ r.portIbo = r'.portIbo := by
  simp only [copy, ActiveDict.mk.injEq, Option.some.injEq, JsonValue.text.injEq,
    JsonValue.ofColumn_injective.eq_iff]

namespace ZgcTable

variable {t t' : ZgcTable} {r r' : ZgcRecord} {zgcId : Text}

theorem insert_rows (h : t.insert r = some t') : t'.rows = t.rows ++ [r] := by
  unfold insert at h
  split_ifs at h
  obtain rfl := Option.some.inj h
  rfl

/-- The first row is always new. -/
theorem insert_of_nil (h : t.rows = []) : ∃ t', t.insert r = some t' := by
  obtain ⟨rows, ids, names⟩ := t
  obtain rfl : rows = [] := h
  exact ⟨_, dif_pos ⟨List.nodup_singleton _, List.nodup_singleton _⟩⟩

theorem get?_eq_some (h : t.get? zgcId = some r) : r ∈ t.rows ∧ r.zgcId = zgcId :=
  ⟨List.mem_of_find?_eq_some h, by simpa using List.find?_some h⟩

/-- The row with an id is the only one. -/
theorem eq_of_zgcId (hr : r ∈ t.rows) (hr' : r' ∈ t.rows) (h : r.zgcId = r'.zgcId) : r = r' :=
  List.inj_on_of_nodup_map t.ids hr hr' h

theorem first_eq_none {n : ℕ} : t.first n = none ↔ t.rows = [] := by
  rw [first, List.getElem?_eq_none_iff]
  constructor
  · intro h
    by_contra hne
    exact absurd (Nat.mod_lt n (List.length_pos_iff.2 hne)) (Nat.not_lt.2 h)
  · intro h
    rw [h]
    exact Nat.zero_le _

theorem mem_of_first {n : ℕ} (h : t.first n = some r) : r ∈ t.rows := List.mem_of_getElem? h

end ZgcTable

end Copies

/-! ## Steps -/

section Steps

variable {V : Type} {cast : V → Option Text} {s : ZgcState V}

/-- The row and the table after a row is added. -/
def added (s : ZgcState V) (refused : Bool) (row : Option ZgcRecord) : Option (ZgcRecord × ZgcTable) :=
  if refused then none else row.bind fun r => (s.zgcs.insert r).map fun t => (r, t)

theorem dbAddZgc_run (s : ZgcState V) (refused : Bool) (row : Option ZgcRecord) :
    dbAddZgc refused row s = match added s refused row with
      | none => (.error .integrityError, s)
      | some (r, t) => (.ok r, { s with zgcs := t }) := by
  cases row with
  | none => cases refused <;> rfl
  | some r =>
    rw [dbAddZgc, bind_run, getState_run]
    dsimp only
    cases hi : s.zgcs.insert r with
    | none => cases refused <;> simp [added, hi]
    | some t => cases refused <;> simp [added, hi, bind_run]

theorem added_eq_some {refused : Bool} {row : Option ZgcRecord} {r : ZgcRecord} {t : ZgcTable}
    (h : added s refused row = some (r, t)) :
    refused = false ∧ row = some r ∧ t.rows = s.zgcs.rows ++ [r] := by
  unfold added at h
  split_ifs at h with hr
  obtain ⟨r', hrow, hmap⟩ := Option.bind_eq_some_iff.1 h
  obtain ⟨t', hi, heq⟩ := Option.map_eq_some_iff.1 hmap
  obtain ⟨rfl, rfl⟩ := Prod.mk.inj heq
  exact ⟨Bool.not_eq_true _ ▸ hr, hrow, ZgcTable.insert_rows hi⟩

/-- What a new row is made of. -/
theorem ZgcBody.row_spec {b : ZgcBody V} {zgcId : Text} {r : ZgcRecord} (h : b.row cast zgcId = some r) :
    r.zgcId = zgcId ∧ b.ipStart ≠ none ∧ b.ipEnd ≠ none := by
  have hnull : ∀ limit, columnNotNull cast limit (getOrNull none) = none := fun _ => rfl
  obtain ⟨_, -, h⟩ := Option.bind_eq_some_iff.1 h
  obtain ⟨_, -, h⟩ := Option.bind_eq_some_iff.1 h
  obtain ⟨_, hstart, h⟩ := Option.bind_eq_some_iff.1 h
  obtain ⟨_, hend, h⟩ := Option.bind_eq_some_iff.1 h
  obtain ⟨_, -, h⟩ := Option.bind_eq_some_iff.1 h
  obtain ⟨_, -, h⟩ := Option.bind_eq_some_iff.1 h
  obtain rfl := Option.some.inj h
  refine ⟨rfl, fun hn => ?_, fun hn => ?_⟩
  · rw [hn, hnull] at hstart
    cases hstart
  · rw [hn, hnull] at hend
    cases hend

/-- The state after a POST. -/
theorem allZgcsPost_final (zgcId : Text) (b : ZgcBody V) (refused : Bool) (s : ZgcState V) :
    (allZgcsPost cast zgcId b refused s).2 =
      if b.others then s
      else match added s refused (b.row cast zgcId) with
        | none => s
        | some (_, t) =>
          ⟨t, if s.active.isEmpty then ⟨some zgcId, b.ipStart, b.ipEnd, b.portIbo⟩ else s.active⟩ := by
  unfold allZgcsPost
  cases b.others with
  | true => rfl
  | false =>
    rw [if_neg Bool.false_ne_true, if_neg Bool.false_ne_true, bind_run, dbAddZgc_run]
    cases ha : added s refused (b.row cast zgcId) with
    | none => rfl
    | some p =>
      obtain ⟨r, t⟩ := p
      obtain ⟨-, hrow, -⟩ := added_eq_some ha
      obtain ⟨-, hstart, hend⟩ := b.row_spec hrow
      obtain ⟨ipStart, hstart⟩ := Option.ne_none_iff_exists'.1 hstart
      obtain ⟨ipEnd, hend⟩ := Option.ne_none_iff_exists'.1 hend
      dsimp only
      rw [bind_run, getState_run]
      dsimp only
      cases he : s.active.isEmpty with
      | false => rfl
      | true =>
        rw [if_pos rfl, if_pos rfl, hstart, hend]
        cases hport : b.portIbo with
        | some v => rfl
        | none =>
          have hempty := ActiveDict.isEmpty_iff.1 he
          rw [hempty]
          rfl

/-- The state after a PUT. -/
theorem singleZgcPut_final (zgcId : Text) (b : ZgcBody V) (refused : Bool) (s : ZgcState V) :
    (singleZgcPut cast zgcId b refused s).2 = match s.zgcs.get? zgcId, b.change cast with
      | some _, some c => if refused then s else { s with zgcs := s.zgcs.update zgcId c }
      | _, _ => s := by
  unfold singleZgcPut
  rw [bind_run, getState_run]
  dsimp only
  cases s.zgcs.get? zgcId with
  | none => rfl
  | some r => cases b.change cast with
    | none => rfl
    | some c => cases refused <;> rfl

/-- The state after a DELETE. -/
theorem singleZgcDelete_final (zgcId : Text) (refused : Bool) (first : ℕ) (s : ZgcState V) :
    (singleZgcDelete zgcId refused first s).2 = match s.zgcs.get? zgcId with
      | none => s
      | some _ => if refused then s else
        ⟨s.zgcs.delete zgcId, if s.active.zgcId = some zgcId
          then ((s.zgcs.delete zgcId).first first).elim .empty .copy else s.active⟩ := by
  unfold singleZgcDelete
  rw [bind_run, getState_run]
  dsimp only
  cases s.zgcs.get? zgcId with
  | none => rfl
  | some r => cases refused with
    | true => rfl
    | false =>
      dsimp only
      rw [if_neg Bool.false_ne_true, if_neg Bool.false_ne_true, bind_run, modifyState_run]
      dsimp only
      rw [bind_run, getState_run]
      dsimp only
      by_cases ha : s.active.zgcId = some zgcId
      · rw [if_pos ha, if_pos ha]
        cases (s.zgcs.delete zgcId).first first <;> rfl
      · rw [if_neg ha, if_neg ha]
        rfl

/-- The state after a cluster is set up. -/
theorem setUpClusterFromHazelcast_final (zgcId : Text) (c : ArionGatewayCluster) (refused : Bool)
    (s : ZgcState V) : (setUpClusterFromHazelcast cast zgcId c refused s).2 =
      match added s refused (c.body.row cast zgcId) with
      | none => s
      | some (r, t) => ⟨t, if s.active.isEmpty then .copy r else s.active⟩ := by
  unfold setUpClusterFromHazelcast
  rw [bind_run, dbAddZgc_run]
  cases added s refused (c.body.row cast zgcId) with
  | none => rfl
  | some p =>
    dsimp only
    rw [bind_run, getState_run]
    dsimp only
    cases s.active.isEmpty <;> rfl

/-- A row is added while there is an active ZGC. -/
theorem CopyCurrent.keep (h : CopyCurrent s) {t : ZgcTable} {r : ZgcRecord}
    (ht : t.rows = s.zgcs.rows ++ [r]) (ha : s.active ≠ .empty) : CopyCurrent ⟨t, s.active⟩ := by
  obtain ⟨r', hr', hc⟩ := h.copy ha
  refine ⟨iff_of_false ha ?_, fun _ => ⟨r', ?_, hc⟩⟩
  · change t.rows ≠ []
    rw [ht]
    exact List.append_ne_nil_of_right_ne_nil _ (List.cons_ne_nil _ _)
  · change r' ∈ t.rows
    rw [ht]
    exact List.mem_append_left _ hr'

/-- The first row and its copy. -/
theorem copyCurrent_singleton {t : ZgcTable} {r : ZgcRecord} (ht : t.rows = [r]) {d : ActiveDict V}
    (hd : d ≠ .empty) : CopyCurrent ⟨t, d⟩ ↔ d = .copy r := by
  constructor
  · intro h
    obtain ⟨r', hr', hc⟩ := h.copy hd
    change r' ∈ t.rows at hr'
    rw [ht, List.mem_singleton] at hr'
    exact hr' ▸ hc
  · intro h
    refine ⟨iff_of_false hd ?_, fun _ => ⟨r, ?_, h⟩⟩
    · change t.rows ≠ []
      rw [ht]
      exact List.cons_ne_nil _ _
    · change r ∈ t.rows
      rw [ht]
      exact List.mem_singleton_self r

/-- The first row that is added makes the copy, and later ones leave it. -/
theorem CopyCurrent.post_iff (h : CopyCurrent s) (zgcId : Text) (b : ZgcBody V) (refused : Bool) :
    CopyCurrent (allZgcsPost cast zgcId b refused s).2 ↔ (ZgcCall.post zgcId b refused).Faithful cast s := by
  rw [allZgcsPost_final]
  cases hb : b.others with
  | true => exact iff_of_true h fun _ _ ho => nomatch hb.symm.trans ho
  | false =>
    rw [if_neg Bool.false_ne_true]
    cases hadd : added s refused (b.row cast zgcId) with
    | none =>
      refine iff_of_true h fun hact href _ r hr => ?_
      obtain ⟨t, ht⟩ := ZgcTable.insert_of_nil (r := r) (h.empty.1 hact)
      rw [added, href, hr, if_neg Bool.false_ne_true, Option.bind_some, ht] at hadd
      cases hadd
    | some p =>
      obtain ⟨r, t⟩ := p
      obtain ⟨href, hrow, ht⟩ := added_eq_some hadd
      dsimp only
      by_cases hact : s.active = .empty
      · rw [if_pos (ActiveDict.isEmpty_iff.2 hact)]
        rw [h.empty.1 hact, List.nil_append] at ht
        rw [copyCurrent_singleton ht fun hd => Option.some_ne_none _ (congrArg ActiveDict.zgcId hd)]
        have hid := (b.row_spec hrow).1
        constructor
        · intro hc _ _ _ r' hr'
          obtain rfl := Option.some.inj (hrow.symm.trans hr')
          simp only [ActiveDict.copy, ActiveDict.mk.injEq] at hc
          exact hc.2
        · intro hf
          obtain ⟨hstart, hend, hport⟩ := hf hact href hb r hrow
          rw [ActiveDict.copy, hid, hstart, hend, hport]
      · rw [if_neg fun he => hact (ActiveDict.isEmpty_iff.1 he)]
        exact iff_of_true (h.keep ht hact) fun he => absurd he hact

/-- A changed row and its copy. -/
theorem CopyCurrent.update_iff (h : CopyCurrent s) {zgcId : Text} {r : ZgcRecord}
    (hr : s.zgcs.get? zgcId = some r) (c : ZgcChange) :
    CopyCurrent { s with zgcs := s.zgcs.update zgcId c } ↔
      (s.active = .copy r → c.ipStart = r.ipStart ∧ c.ipEnd = r.ipEnd ∧ c.portIbo = r.portIbo) := by
  obtain ⟨hmem, hid⟩ := ZgcTable.get?_eq_some hr
  have hact : s.active ≠ .empty := fun he => by
    rw [h.empty.1 he] at hmem
    cases hmem
  obtain ⟨r₀, hr₀, hcopy⟩ := h.copy hact
  have hrows : (s.zgcs.update zgcId c).rows ≠ [] := fun hn =>
    List.ne_nil_of_mem hmem (List.map_eq_nil_iff.1 hn)
  constructor
  · intro hcur hcr
    obtain ⟨r', hr', hc'⟩ := hcur.copy hact
    obtain ⟨x, hx, rfl⟩ := List.mem_map.1 hr'
    have heq := ActiveDict.copy_eq_iff.1 (hcr.symm.trans hc')
    by_cases hxid : x.zgcId = zgcId
    · rw [if_pos hxid] at heq
      exact ⟨heq.2.1.symm, heq.2.2.1.symm, heq.2.2.2.symm⟩
    · rw [if_neg hxid] at heq
      exact absurd (heq.1.symm.trans hid) hxid
  · intro hkeep
    refine ⟨iff_of_false hact hrows, fun _ => ?_⟩
    by_cases hid₀ : r₀.zgcId = zgcId
    · obtain rfl := ZgcTable.eq_of_zgcId hr₀ hmem (hid₀.trans hid.symm)
      obtain ⟨hstart, hend, hport⟩ := hkeep hcopy
      refine ⟨r₀.change c, List.mem_map.2 ⟨r₀, hr₀, if_pos hid₀⟩, hcopy.trans ?_⟩
      exact ActiveDict.copy_eq_iff.2 ⟨rfl, hstart.symm, hend.symm, hport.symm⟩
    · exact ⟨r₀, List.mem_map.2 ⟨r₀, hr₀, if_neg hid₀⟩, hcopy⟩

theorem CopyCurrent.put_iff (h : CopyCurrent s) (zgcId : Text) (b : ZgcBody V) (refused : Bool) :
    CopyCurrent (singleZgcPut cast zgcId b refused s).2 ↔ (ZgcCall.put zgcId b refused).Faithful cast s := by
  rw [singleZgcPut_final]
  cases hr : s.zgcs.get? zgcId with
  | none => exact iff_of_true h fun _ r hr' => nomatch hr.symm.trans hr'
  | some r =>
    have hr' : ∀ {r'}, s.zgcs.get? zgcId = some r' → r = r' := fun h' => Option.some.inj (hr.symm.trans h')
    cases hc : b.change cast with
    | none => exact iff_of_true h fun _ _ _ _ c hc' => nomatch hc.symm.trans hc'
    | some c =>
      cases refused with
      | true => exact iff_of_true h fun href => nomatch href
      | false =>
        refine (h.update_iff hr c).trans ⟨fun hk _ r' hget hcopy c' hc' => ?_, fun hf hcopy =>
          hf rfl r hr hcopy c hc⟩
        obtain rfl := hr' hget
        obtain rfl := Option.some.inj (hc.symm.trans hc')
        exact hk hcopy

/-- The copy after its row is deleted is that of another row. -/
theorem CopyCurrent.delete (h : CopyCurrent s) (zgcId : Text) (refused : Bool) (first : ℕ) :
    CopyCurrent (singleZgcDelete zgcId refused first s).2 := by
  rw [singleZgcDelete_final]
  cases hr : s.zgcs.get? zgcId with
  | none => exact h
  | some r => cases refused with
    | true => exact h
    | false =>
      obtain ⟨hmem, -⟩ := ZgcTable.get?_eq_some hr
      have hact : s.active ≠ .empty := fun he => by
        rw [h.empty.1 he] at hmem
        cases hmem
      obtain ⟨r₀, hr₀, hcopy⟩ := h.copy hact
      have hid : s.active.zgcId = some r₀.zgcId := congrArg ActiveDict.zgcId hcopy
      dsimp only
      rw [if_neg Bool.false_ne_true]
      by_cases hact₀ : s.active.zgcId = some zgcId
      · rw [if_pos hact₀]
        cases hf : (s.zgcs.delete zgcId).first first with
        | none => exact ⟨iff_of_true rfl (ZgcTable.first_eq_none.1 hf), fun hne => absurd rfl hne⟩
        | some r' =>
          have hr' := ZgcTable.mem_of_first hf
          exact ⟨iff_of_false (ActiveDict.copy_ne_empty r') (List.ne_nil_of_mem hr'), fun _ => ⟨r', hr', rfl⟩⟩
      · rw [if_neg hact₀]
        have hr' : r₀ ∈ (s.zgcs.delete zgcId).rows :=
          List.mem_filter.2 ⟨hr₀, decide_eq_true fun he => hact₀ (hid.trans (congrArg some he))⟩
        exact ⟨iff_of_false hact (List.ne_nil_of_mem hr'), fun _ => ⟨r₀, hr', hcopy⟩⟩

theorem CopyCurrent.hazelcast (h : CopyCurrent s) (zgcId : Text) (c : ArionGatewayCluster) (refused : Bool) :
    CopyCurrent (setUpClusterFromHazelcast cast zgcId c refused s).2 := by
  rw [setUpClusterFromHazelcast_final]
  cases hadd : added s refused (c.body.row cast zgcId) with
  | none => exact h
  | some p =>
    obtain ⟨r, t⟩ := p
    obtain ⟨-, -, ht⟩ := added_eq_some hadd
    dsimp only
    by_cases hact : s.active = .empty
    · rw [if_pos (ActiveDict.isEmpty_iff.2 hact)]
      rw [h.empty.1 hact, List.nil_append] at ht
      exact (copyCurrent_singleton ht (ActiveDict.copy_ne_empty r)).2 rfl
    · rw [if_neg fun he => hact (ActiveDict.isEmpty_iff.1 he)]
      exact h.keep ht hact

/-- **Step lemma**: the copy stays right exactly under faithful requests. -/
theorem ZgcCall.copyCurrent_iff (h : CopyCurrent s) (c : ZgcCall V) :
    CopyCurrent (c.run cast s) ↔ c.Faithful cast s := by
  cases c with
  | post zgcId b refused => exact h.post_iff zgcId b refused
  | put zgcId b refused => exact h.put_iff zgcId b refused
  | delete zgcId refused first => exact iff_of_true (h.delete zgcId refused first) trivial
  | hazelcast zgcId c refused => exact iff_of_true (h.hazelcast zgcId c refused) trivial

end Steps

/-! ## Runs -/

theorem CopyCurrent.start {V : Type} : CopyCurrent (ZgcState.start : ZgcState V) :=
  ⟨iff_of_true rfl rfl, fun h => absurd rfl h⟩

/-- **`activeZgc` mirrors the database** after every request of a run exactly if all its requests are
faithful. -/
theorem zgcs_mirrored_iff {V : Type} (cast : V → Option Text) (calls : List (ZgcCall V)) :
    (∀ n s, run (zgcStep cast) (calls.take n) .start = some s → CopyCurrent s) ↔
      EachStep (zgcStep cast) (ZgcCall.Faithful cast) calls .start := by
  refine forall_run_iff (fun _ _ => rfl) (fun c s t hs ht => ?_) CopyCurrent.start
  obtain rfl := Option.some.inj ht
  exact c.copyCurrent_iff hs

/-! ## Samples -/

/-- The texts of booleans. -/
def boolText (b : Bool) : Option Text := some (if b then "true".toList else "false".toList)

/-- A ZGC from 10.0.0.1 to an address, with a port. -/
def sampleZgcBody (ipEnd : String) (portIbo : Option (JsonValue Bool)) : ZgcBody Bool where
  name := some (.text "zgc".toList)
  description := some (.text "ZGC".toList)
  ipStart := some (.text "10.0.0.1".toList)
  ipEnd := some (.text ipEnd.toList)
  portIbo := portIbo
  overlayType := some (.text "vxlan".toList)
  others := false

/-- A run after which `activeZgc` is neither empty nor the copy of a row. -/
def LeavesWrongCopy (calls : List (ZgcCall Bool)) : Prop :=
  ∃ s, run (zgcStep boolText) calls .start = some s ∧ s.active ≠ .empty ∧
    ¬ ∃ r ∈ s.zgcs.rows, s.active = .copy r

/-- **A PUT leaves the old addresses in the copy**; a POST without a port leaves it without one, and a POST with
a number leaves the number. -/
theorem put_leaves_old_copy :
    LeavesWrongCopy [.post "z".toList (sampleZgcBody "10.0.0.4" (some (.text "8300".toList))) false,
      .put "z".toList (sampleZgcBody "10.0.0.8" (some (.text "8300".toList))) false] ∧
    LeavesWrongCopy [.post "z".toList (sampleZgcBody "10.0.0.4" none) false] ∧
    LeavesWrongCopy [.post "z".toList (sampleZgcBody "10.0.0.4" (some (.int 8300))) false] := by
  refine ⟨⟨_, rfl, ?_⟩, ⟨_, rfl, ?_⟩, ⟨_, rfl, ?_⟩⟩ <;> decide +kernel

end ArionDp
