import ArionDp.Cli.Ep

/-!
# Endpoints in the daemon

The endpoint calls of `trn_rpc_protocol_handlers_1.c` on the `endpoints_map` of a node, and the
`update-ep`, `get-ep` and `delete-ep` subcommands that reach them: a call is made as its handler serves it, with the
words of each endpoint as the client has put them into `rpc_trn_endpoint_t`. The map has room for every endpoint;
`EndpointStore` is the one of the code, with room for `TRAN_MAX_NEP`, and answers in the same way exactly as long as
the keys fit (`epService_unbounded`).

* `updateEndpoints`, **`updateEndpoints_apply`**: what a batch leaves under a key;
* **`updateEndpoints_isSome`**: an update removes no key and adds those of the batch.
-/

namespace ArionDp

open Wire

/-- `RPC_TRN_ERROR` -/
def rpcTrnError : ℤ := 2

/-- The content of `endpoints_map`. -/
abbrev EndpointsMap := EndpointKey → Option Endpoint

/-- `trn_update_endpoint` -/
def trnUpdateEndpoint (m : EndpointsMap) (epkey : EndpointKey) (ep : Endpoint) : EndpointsMap :=
  fun k => if k = epkey then some ep else m k

/-- `trn_delete_endpoint` -/
def trnDeleteEndpoint (m : EndpointsMap) (epkey : EndpointKey) : EndpointsMap :=
  fun k => if k = epkey then none else m k

/-- The loop of `update_ep_1_svc`. -/
def updateEndpoints (m : EndpointsMap) (batch : List TrnEp) : EndpointsMap :=
  batch.foldl (fun m ep => trnUpdateEndpoint m ep.key ep.val) m

/-- `update_ep_1_svc`; without a loaded program there is no map -/
def updateEp1Svc (m : Option EndpointsMap) (batch : List TrnEp) : ℤ × Option EndpointsMap :=
  match m with
  | none => (rpcTrnError, none)
  | some m => (0, some (updateEndpoints m batch))

/-- `get_ep_1_svc` -/
def getEp1Svc (m : Option EndpointsMap) (argp : EndpointKey) : Option TrnEp :=
  match m with
  | none => none
  | some m => (m argp).map fun ep => ⟨argp, ep⟩

/-- `delete_ep_1_svc` -/
def deleteEp1Svc (m : Option EndpointsMap) (argp : EndpointKey) : ℤ × Option EndpointsMap :=
  match m with
  | none => (rpcTrnError, none)
  | some m => match m argp with
    | none => (rpcTrnError, some m)
    | some _ => (0, some (trnDeleteEndpoint m argp))

/-- The endpoints that `update_ep_1_svc` reads in the words of a message. -/
def rpcBatch (batch : List TrnEp) : List TrnEp := batch.map fun ep => .ofRpcEp ep.rpcEp

/-- `trn_cli_update_ep_subcmd`: whether it succeeds, and the map of the node -/
def trnCliUpdateEpSubcmd (conf : CJson) (m : Option EndpointsMap) : Bool × Option EndpointsMap :=
  match trnCliParseEp conf with
  | .error _ => (false, m)
  | .ok batch => ((updateEp1Svc m (rpcBatch batch)).1 == 0, (updateEp1Svc m (rpcBatch batch)).2)

/-- `trn_cli_get_ep_subcmd`: the endpoint it prints -/
def trnCliGetEpSubcmd (conf : CJson) (m : Option EndpointsMap) : Option TrnEp :=
  match trnCliParseEpKey conf with
  | .error _ => none
  | .ok epkey => getEp1Svc m epkey

/-- `trn_cli_delete_ep_subcmd` -/
def trnCliDeleteEpSubcmd (conf : CJson) (m : Option EndpointsMap) : Bool × Option EndpointsMap :=
  match trnCliParseEpKey conf with
  | .error _ => (false, m)
  | .ok epKey => ((deleteEp1Svc m epKey).1 == 0, (deleteEp1Svc m epKey).2)

/-- **The daemon reads the endpoints that the client wrote.** -/
theorem rpcBatch_eq (batch : List TrnEp) : rpcBatch batch = batch := by
  rw [rpcBatch, List.map_id'' TrnEp.ofRpcEp_rpcEp]

theorem trnUpdateEndpoint_apply (m : EndpointsMap) (epkey : EndpointKey) (ep : Endpoint)
    (k : EndpointKey) : trnUpdateEndpoint m epkey ep k = if k = epkey then some ep else m k := rfl

theorem updateEndpoints_cons (m : EndpointsMap) (e : TrnEp) (batch : List TrnEp) :
    updateEndpoints m (e :: batch) = updateEndpoints (trnUpdateEndpoint m e.key e.val) batch := rfl

theorem updateEndpoints_append (m : EndpointsMap) (l l' : List TrnEp) :
    updateEndpoints m (l ++ l') = updateEndpoints (updateEndpoints m l) l' := List.foldl_append

/-- A key that no endpoint of the batch has keeps its entry. -/
theorem updateEndpoints_of_notMem (m : EndpointsMap) (batch : List TrnEp) {k : EndpointKey}
    (h : ∀ e ∈ batch, e.key ≠ k) : updateEndpoints m batch k = m k := by
  induction batch generalizing m with
  | nil => rfl
  | cons e batch ih =>
    rw [updateEndpoints_cons, ih _ fun e' he' => h e' (List.mem_cons_of_mem _ he')]
    exact if_neg (h e (List.mem_cons_self ..)).symm

/-- **The last endpoint with a key is the one that stays.** -/
theorem updateEndpoints_apply (m : EndpointsMap) (pre post : List TrnEp) (e : TrnEp)
    (h : ∀ e' ∈ post, e'.key ≠ e.key) :
    updateEndpoints m (pre ++ e :: post) e.key = some e.val := by
  rw [updateEndpoints_append, updateEndpoints_cons, updateEndpoints_of_notMem _ _ h]
  exact if_pos rfl

/-- What is under a key comes from the map or from the batch. -/
theorem updateEndpoints_some {m : EndpointsMap} {batch : List TrnEp} {k : EndpointKey} {v : Endpoint}
    (h : updateEndpoints m batch k = some v) : m k = some v ∨ ⟨k, v⟩ ∈ batch := by
  induction batch generalizing m with
  | nil => exact .inl h
  | cons e batch ih =>
    rw [updateEndpoints_cons] at h
    rcases ih h with h | h
    · rw [trnUpdateEndpoint_apply] at h
      split_ifs at h with he
      · obtain rfl := Option.some.inj h
        exact .inr (he ▸ List.mem_cons_self ..)
      · exact .inl h
    · exact .inr (List.mem_cons_of_mem _ h)

/-- **A key is in use after an update if it was before or is one of the batch.** -/
theorem updateEndpoints_isSome {m : EndpointsMap} {batch : List TrnEp} {k : EndpointKey}
    (h : (m k).isSome ∨ ∃ e ∈ batch, e.key = k) : (updateEndpoints m batch k).isSome := by
  induction batch generalizing m with
  | nil => exact h.elim id fun ⟨_, he, _⟩ => absurd he List.not_mem_nil
  | cons e batch ih =>
    rw [updateEndpoints_cons]
    refine ih ?_
    rw [trnUpdateEndpoint_apply]
    split_ifs with hk
    · exact .inl rfl
    · rcases h with h | ⟨e', he', rfl⟩
      · exact .inl h
      · rcases List.mem_cons.1 he' with rfl | he'
        · exact absurd rfl hk
        · exact .inr ⟨e', he', rfl⟩

end ArionDp
