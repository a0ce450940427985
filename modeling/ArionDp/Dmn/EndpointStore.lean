import ArionDp.Dmn.Endpoints
import ArionDp.Lib.BoundedMap
import ArionDp.Lib.Redelivery

/-!
# Endpoints in a map with a bound

`endpoints_map` has `TRAN_MAX_NEP` entries, and the daemon serves the requests of its clients over UDP, where a
client sends a request again until it gets an answer. Here are the endpoint calls on a map with that bound, as
requests that the daemon serves one after the other.

* `EpRequest`, `epService`: the requests, and how a daemon serves one of them;
* **`updateEp_partly`**: what an update leaves, also when it fails;
* **`epService_unbounded`**: while the keys fit, the bound is not seen;
* **`epService_copies`**: requests that arrive more than once.
-/

namespace ArionDp

open Redelivery

/-- `TRAN_MAX_NEP` -/
abbrev tranMaxNep : ℕ := 1024 * 1024 * 4

/-- `endpoints_map` -/
abbrev EndpointStore := BoundedMap EndpointKey Endpoint tranMaxNep

/-- An endpoint as a key and its value. -/
def TrnEp.entry (e : TrnEp) : EndpointKey × Endpoint := (e.key, e.val)

namespace EndpointStore

/-- `update_ep_1_svc`: the loop ends with the first endpoint that `bpf_map_update_elem` refuses. -/
def updateEp1Svc (m : Option EndpointStore) (batch : List TrnEp) : ℤ × Option EndpointStore :=
  match m with
  | none => (rpcTrnError, none)
  | some m =>
    let r := m.updates (batch.map TrnEp.entry)
    (if r.1 then 0 else rpcTrnError, some r.2)

/-- `get_ep_1_svc` -/
def getEp1Svc (m : Option EndpointStore) (argp : EndpointKey) : Option TrnEp :=
  match m with
  | none => none
  | some m => (m.lookup argp).map fun ep => ⟨argp, ep⟩

/-- `delete_ep_1_svc` -/
def deleteEp1Svc (m : Option EndpointStore) (argp : EndpointKey) : ℤ × Option EndpointStore :=
  match m with
  | none => (rpcTrnError, none)
  | some m => match m.delete argp with
    | none => (rpcTrnError, some m)
    | some m' => (0, some m')

end EndpointStore

/-- A request about endpoints. -/
inductive EpRequest
  | updateEp (batch : List TrnEp)
  | deleteEp (argp : EndpointKey)
  | getEp (argp : EndpointKey)

/-- What a client hears of its request. The handler of `get_ep` returns `NULL` for a key that is not there, and
then no answer is sent. -/
inductive EpReply
  | result (rc : ℤ)
  | ep (e : TrnEp)
  | silent
  deriving DecidableEq

/-- The answer to a `get_ep`. -/
def EpReply.ofGet : Option TrnEp → EpReply
  | none => .silent
  | some e => .ep e

/-- A request, on the map of the daemon. -/
def epService : EpRequest → Option EndpointStore → EpReply × Option EndpointStore
  | .updateEp batch, m => ((.result (EndpointStore.updateEp1Svc m batch).1), (EndpointStore.updateEp1Svc m batch).2)
  | .deleteEp argp, m => ((.result (EndpointStore.deleteEp1Svc m argp).1), (EndpointStore.deleteEp1Svc m argp).2)
  | .getEp argp, m => (.ofGet (EndpointStore.getEp1Svc m argp), m)

/-- The same request, on a map with room for every endpoint. -/
def epServiceAll : EpRequest → Option EndpointsMap → EpReply × Option EndpointsMap
  | .updateEp batch, m => ((.result (updateEp1Svc m batch).1), (updateEp1Svc m batch).2)
  | .deleteEp argp, m => ((.result (deleteEp1Svc m argp).1), (deleteEp1Svc m argp).2)
  | .getEp argp, m => (.ofGet (getEp1Svc m argp), m)

/-! ## Updates -/

section Updates

variable {m : EndpointStore} {batch : List TrnEp}

theorem puts_entries (f : EndpointsMap) (batch : List TrnEp) :
    BoundedMap.puts f (batch.map TrnEp.entry) = updateEndpoints f batch := by
  induction batch generalizing f with
  | nil => rfl
  | cons e batch ih =>
    rw [List.map_cons, BoundedMap.puts_cons, ih, updateEndpoints_cons]
    congr 1
    funext k
    rw [Function.update_apply]
    rfl

/-- An update succeeds exactly when the endpoints fit. -/
theorem updateEp_eq_zero : (EndpointStore.updateEp1Svc (some m) batch).1 = 0 ↔
    BoundedMap.FitsIn tranMaxNep (updateEndpoints m.lookup batch) := by
  rw [← puts_entries, ← BoundedMap.updates_fst_eq_true, EndpointStore.updateEp1Svc]
  change (if (m.updates (batch.map TrnEp.entry)).1 then (0 : ℤ) else rpcTrnError) = 0 ↔ _
  cases (m.updates (batch.map TrnEp.entry)).1 <;> decide

/-- Endpoints that fit are stored. -/
theorem updateEp_of_fits (h : BoundedMap.FitsIn tranMaxNep (updateEndpoints m.lookup batch)) :
    ∃ m' : EndpointStore, EndpointStore.updateEp1Svc (some m) batch = (0, some m') ∧
      m'.lookup = updateEndpoints m.lookup batch := by
  have hzero := updateEp_eq_zero.2 h
  rw [← puts_entries, ← BoundedMap.updates_fst_eq_true] at h
  obtain ⟨-, hlook⟩ | ⟨_, _, _, -, hfalse, -⟩ := m.updates_spec (batch.map TrnEp.entry)
  · exact ⟨_, Prod.ext hzero rfl, hlook.trans (puts_entries ..)⟩
  · exact absurd (h.symm.trans hfalse) Bool.noConfusion

/-- **What an update leaves.** Either it succeeds, and every endpoint of the batch is there, or it fails, and then
the endpoints in front of one of the batch are there: one with a key that the map has not, and the map is full. -/
theorem updateEp_partly (m : EndpointStore) (batch : List TrnEp) :
    ∃ m' : EndpointStore,
      (EndpointStore.updateEp1Svc (some m) batch = (0, some m') ∧ m'.lookup = updateEndpoints m.lookup batch) ∨
      (EndpointStore.updateEp1Svc (some m) batch = (rpcTrnError, some m') ∧
        ∃ done e rest, batch = done ++ e :: rest ∧ m'.lookup = updateEndpoints m.lookup done ∧
          m'.lookup e.key = none ∧ m'.entries.keys.card = tranMaxNep) := by
  refine ⟨(m.updates (batch.map TrnEp.entry)).2, ?_⟩
  obtain ⟨htrue, hlook⟩ | ⟨done, p, rest, hl, hfalse, hlook, hfull⟩ := m.updates_spec (batch.map TrnEp.entry)
  · exact .inl ⟨by rw [EndpointStore.updateEp1Svc]; simp only [htrue, if_true], by rw [hlook, puts_entries]⟩
  · obtain ⟨done', tail, rfl, rfl, htail⟩ := List.map_eq_append_iff.1 hl
    obtain ⟨e, rest', rfl, rfl, rfl⟩ := List.map_eq_cons_iff.1 htail
    rw [BoundedMap.HasRoom, not_or, not_lt] at hfull
    refine .inr ⟨?_, done', e, rest', rfl, by rw [hlook, puts_entries], ?_, ?_⟩
    · rw [EndpointStore.updateEp1Svc]
      simp only [hfalse, if_neg Bool.false_ne_true]
    · exact Finmap.lookup_eq_none.2 hfull.1
    · exact le_antisymm (BoundedMap.room _) hfull.2

end Updates

/-! ## While the keys fit -/

section Fits

variable {m : EndpointStore}

theorem epService_deleteEp_of_none {argp : EndpointKey} (h : m.lookup argp = none) :
    epService (.deleteEp argp) (some m) = (.result rpcTrnError, some m) := by
  simp only [epService, EndpointStore.deleteEp1Svc, BoundedMap.delete_eq_none.2 h]

theorem epService_deleteEp_of_some {argp : EndpointKey} {ep : Endpoint} (h : m.lookup argp = some ep) :
    ∃ m', m.delete argp = some m' ∧ epService (.deleteEp argp) (some m) = (.result 0, some m') ∧
      m'.lookup = trnDeleteEndpoint m.lookup argp := by
  cases hd : m.delete argp with
  | none => exact absurd (h.symm.trans (BoundedMap.delete_eq_none.1 hd)) (Option.some_ne_none ep)
  | some m' =>
    refine ⟨m', rfl, by simp only [epService, EndpointStore.deleteEp1Svc, hd], ?_⟩
    rw [BoundedMap.lookup_delete hd]
    funext k
    rw [Function.update_apply, trnDeleteEndpoint]

/-- No more endpoints are in use than the map has entries. -/
def FitsMap (f : Option EndpointsMap) : Prop := ∀ f' ∈ f, BoundedMap.FitsIn tranMaxNep f'

/-- One request: the answer is that of a map without the bound when the endpoints after it fit. -/
theorem epService_step (m : EndpointStore) (r : EpRequest) :
    ((epService r (some m)).1 = (epServiceAll r (some m.lookup)).1 ↔ FitsMap (epServiceAll r (some m.lookup)).2) ∧
    ((epService r (some m)).1 = (epServiceAll r (some m.lookup)).1 →
      ∃ m', (epService r (some m)).2 = some m' ∧ (epServiceAll r (some m.lookup)).2 = some m'.lookup) := by
  have hfits : ∀ m' : EndpointStore, FitsMap (some m'.lookup) := fun m' f hf =>
    Option.some.inj hf ▸ m'.fitsIn_lookup
  cases r with
  | updateEp batch =>
    have hall : epServiceAll (.updateEp batch) (some m.lookup) = (.result 0, some (updateEndpoints m.lookup batch)) :=
      rfl
    rw [hall]
    by_cases hfit : BoundedMap.FitsIn tranMaxNep (updateEndpoints m.lookup batch)
    · obtain ⟨m', hrun, hlook⟩ := updateEp_of_fits hfit
      rw [epService, hrun, ← hlook]
      exact ⟨⟨fun _ => hfits m', fun _ => rfl⟩, fun _ => ⟨m', rfl, rfl⟩⟩
    · have hreply : (epService (.updateEp batch) (some m)).1 ≠ .result 0 := fun h =>
        hfit (updateEp_eq_zero.1 (EpReply.result.inj h))
      exact ⟨⟨fun h => absurd h hreply, fun h => absurd (h _ rfl) hfit⟩, fun h => absurd h hreply⟩
  | deleteEp argp =>
    cases hk : m.lookup argp with
    | none =>
      have hall : epServiceAll (.deleteEp argp) (some m.lookup) = (.result rpcTrnError, some m.lookup) := by
        simp only [epServiceAll, deleteEp1Svc, hk]
      rw [hall, epService_deleteEp_of_none hk]
      exact ⟨⟨fun _ => hfits m, fun _ => rfl⟩, fun _ => ⟨m, rfl, rfl⟩⟩
    | some ep =>
      obtain ⟨m', -, hrun, hlook⟩ := epService_deleteEp_of_some hk
      have hall : epServiceAll (.deleteEp argp) (some m.lookup) = (.result 0, some m'.lookup) := by
        simp only [epServiceAll, deleteEp1Svc, hk, hlook]
      rw [hall, hrun]
      exact ⟨⟨fun _ => hfits m', fun _ => rfl⟩, fun _ => ⟨m', rfl, rfl⟩⟩
  | getEp argp => exact ⟨⟨fun _ => hfits m, fun _ => rfl⟩, fun _ => ⟨m, rfl, rfl⟩⟩

/-- **When the bound of the map is not seen.** The answers are those of a map without a bound exactly when, after
each of the requests, such a map has no more endpoints in use than there are entries; and then the endpoints are the
same in the end. -/
theorem epService_unbounded (m : EndpointStore) (rs : List EpRequest) :
    ((serve epService rs (some m)).1 = (serve epServiceAll rs (some m.lookup)).1 ↔
      ∀ rs', rs' <+: rs → FitsMap (serve epServiceAll rs' (some m.lookup)).2) ∧
    ((serve epService rs (some m)).1 = (serve epServiceAll rs (some m.lookup)).1 →
      (serve epService rs (some m)).2.map BoundedMap.lookup = (serve epServiceAll rs (some m.lookup)).2) := by
  induction rs generalizing m with
  | nil =>
    refine ⟨⟨fun _ rs' h => ?_, fun _ => rfl⟩, fun _ => rfl⟩
    rw [List.prefix_nil.1 h]
    exact fun f hf => Option.some.inj hf ▸ m.fitsIn_lookup
  | cons r rs ih =>
    obtain ⟨hwhen, hnext⟩ := epService_step m r
    simp only [serve_cons, List.cons.injEq]
    refine ⟨⟨?_, fun hall => ?_⟩, ?_⟩
    · rintro ⟨hreply, hrest⟩ rs' hrs'
      obtain ⟨m', hm', hf'⟩ := hnext hreply
      rw [hm', hf'] at hrest
      rcases List.prefix_cons_iff.1 hrs' with rfl | ⟨rs'', rfl, hrs''⟩
      · exact fun f hf => Option.some.inj hf ▸ m.fitsIn_lookup
      · rw [serve_cons, hf']
        exact (ih m').1.1 hrest rs'' hrs''
    · have hreply := hwhen.2 (hall [r] (List.cons_prefix_cons.2 ⟨rfl, List.nil_prefix⟩))
      obtain ⟨m', hm', hf'⟩ := hnext hreply
      rw [hm', hf']
      refine ⟨hreply, (ih m').1.2 fun rs'' hrs'' => ?_⟩
      have := hall (r :: rs'') (List.cons_prefix_cons.2 ⟨rfl, hrs''⟩)
      rwa [serve_cons, hf'] at this
    · rintro ⟨hreply, hrest⟩
      obtain ⟨m', hm', hf'⟩ := hnext hreply
      rw [hm', hf'] at hrest ⊢
      exact (ih m').2 hrest

end Fits

/-! ## Requests that arrive more than once -/

/-- The answer to a further copy of a request, after the first answer. -/
def EpRequest.copyReply : EpRequest → EpReply → EpReply
  | .deleteEp _, _ => .result rpcTrnError
  | _, reply => reply

/-- A request once more: the map stays as it is. -/
theorem epService_epService (r : EpRequest) (m : Option EndpointStore) :
    epService r (epService r m).2 = (r.copyReply (epService r m).1, (epService r m).2) := by
  cases m with
  | none => cases r <;> rfl
  | some m =>
    cases r with
    | updateEp batch =>
      simp only [epService, EndpointStore.updateEp1Svc, BoundedMap.updates_updates, EpRequest.copyReply]
    | deleteEp argp =>
      cases hk : m.lookup argp with
      | none => rw [epService_deleteEp_of_none hk, epService_deleteEp_of_none hk, EpRequest.copyReply]
      | some ep =>
        obtain ⟨m', hd, hrun, -⟩ := epService_deleteEp_of_some hk
        have hgone := BoundedMap.delete_eq_none.1 (BoundedMap.delete_delete hd)
        rw [hrun, epService_deleteEp_of_none hgone, EpRequest.copyReply]
    | getEp argp => rfl

theorem epService_idempotent : Idempotent epService := fun r m => by rw [epService_epService]

theorem again_epService (r : EpRequest) (m : Option EndpointStore) :
    again epService r m = r.copyReply (epService r m).1 := by rw [again, epService_epService]

/-- **Requests that arrive more than once.** Copies of a request that arrive before the next one leave the map as it
is after one, and the first answers are those without copies. The answers to the copies are the same, but that every
copy of a `delete_ep` reports an error. -/
theorem epService_copies (l : List (EpRequest × ℕ)) (m : Option EndpointStore) :
    (serveCopies epService l m).2 = (serve epService (l.map Prod.fst) m).2 ∧
    (serveCopies epService l m).1.map Prod.fst = (serve epService (l.map Prod.fst) m).1 ∧
    List.Forall₂ (fun p replies => replies.2 = List.replicate p.2 (p.1.copyReply replies.1)) l
      (serveCopies epService l m).1 := by
  rw [serveCopies_eq epService_idempotent]
  refine ⟨rfl, map_fst_answers l m, forall_mem_answers (fun p _ s => ?_) m⟩
  rw [again_epService]

end ArionDp
