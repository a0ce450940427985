import ArionDp.Manager.PortsSpec

/-!
# Endpoints in batches

Sending endpoints in chunks of 360 has the effect of writing them one by one.

* `EpRpc.endpoint`: the endpoint that an entry is meant to be, and **`trnEp_of_inRange`**, that a node
  reads it so;
* `overwrite`: a map with endpoints laid over it, the last one of a key on top;
* **`eps_push`**: what `ports_update_eps_config` sends, and what it leaves on the nodes.
-/

namespace ArionDp

open PyText Py Wire

/-! ## What entries are meant to be -/

/-- The numbers of an entry have the ranges of their types. -/
structure EpRpc.InRange (e : EpRpc) : Prop where
  vni : 0 ≤ e.vni ∧ e.vni < 2 ^ 32
  ip : 0 ≤ e.ip ∧ e.ip < 2 ^ 32
  hip : 0 ≤ e.hip ∧ e.hip < 2 ^ 32
  mac : 0 ≤ e.mac ∧ e.mac < 2 ^ 48
  hmac : 0 ≤ e.hmac ∧ e.hmac < 2 ^ 48

instance (e : EpRpc) : Decidable e.InRange :=
  decidable_of_iff ((0 ≤ e.vni ∧ e.vni < 2 ^ 32) ∧ (0 ≤ e.ip ∧ e.ip < 2 ^ 32) ∧
    (0 ≤ e.hip ∧ e.hip < 2 ^ 32) ∧ (0 ≤ e.mac ∧ e.mac < 2 ^ 48) ∧ (0 ≤ e.hmac ∧ e.hmac < 2 ^ 48))
    ⟨fun h => ⟨h.1, h.2.1, h.2.2.1, h.2.2.2.1, h.2.2.2.2⟩,
      fun h => ⟨h.vni, h.ip, h.hip, h.mac, h.hmac⟩⟩

/-- **The endpoint that an entry is meant to be**: addresses in network byte order. -/
def EpRpc.endpoint (e : EpRpc) : TrnEp :=
  ⟨⟨BitVec.ofInt 32 e.vni, networkWord (octets 4 e.ip.toNat)⟩,
    ⟨networkWord (octets 4 e.hip.toNat), octets 6 e.mac.toNat, octets 6 e.hmac.toNat⟩⟩

theorem cUInt_read (num : JsonNumber) (w n : ℕ) (h : n < 2 ^ 53) :
    Json.cUInt w (num.read n) = BitVec.ofNat w n := by
  rw [num.exact n h, Json.cUInt_natCast]

theorem swapLoop_ofNat (n : ℕ) : swapLoop 4 0 (BitVec.ofNat 32 n) = networkWord (octets 4 n) := by
  refine eq_networkWord fun k => ?_
  rw [byte_swapLoop _ k.isLt]
  exact byte_ofNat_octets (w := 4) n k (by omega)

theorem macOctets_natCast (num : JsonNumber) (n : ℕ) (h : n < 2 ^ 53) :
    macOctets num n = octets 6 n := by
  funext k
  rw [macOctets, cUInt_read num 64 n h, macLoop_six]
  exact byte_ofNat_octets (w := 6) n k (by omega)

/-- **A node reads an entry as it is meant.** -/
theorem trnEp_of_inRange (num : JsonNumber) {e : EpRpc} (h : e.InRange) :
    e.trnEp num = e.endpoint := by
  obtain ⟨vni, ip, hip, mac, hmac⟩ := e
  obtain ⟨⟨hv, hv'⟩, ⟨hi, hi'⟩, ⟨hh, hh'⟩, ⟨hm, hm'⟩, ⟨hn, hn'⟩⟩ := h
  dsimp only at hv hv' hi hi' hh hh' hm hm' hn hn'
  lift vni to ℕ using hv
  lift ip to ℕ using hi
  lift hip to ℕ using hh
  lift mac to ℕ using hm
  lift hmac to ℕ using hn
  rw [EpRpc.trnEp, EpRpc.endpoint, endpointKey, cUInt_read num 32 vni (by omega),
    cUInt_read num 32 ip (by omega), cUInt_read num 32 hip (by omega), swapLoop_ofNat, swapLoop_ofNat,
    macOctets_natCast num mac (by omega), macOctets_natCast num hmac (by omega), BitVec.ofInt_natCast,
    Int.toNat_natCast, Int.toNat_natCast, Int.toNat_natCast, Int.toNat_natCast]

/-! ## One after the other -/

/-- **A map with endpoints laid over it**, the last one of a key on top. -/
def overwrite (m : EndpointsMap) (l : List TrnEp) : EndpointsMap := fun k =>
  ((l.reverse.find? fun e => e.key = k).map fun e => e.val).or (m k)

theorem updateEndpoints_eq_overwrite (m : EndpointsMap) (l : List TrnEp) :
    updateEndpoints m l = overwrite m l := by
  induction l generalizing m with
  | nil => rfl
  | cons e l ih =>
    funext k
    rw [updateEndpoints_cons, ih, overwrite, overwrite, List.reverse_cons, List.find?_append,
      trnUpdateEndpoint_apply]
    cases l.reverse.find? fun e => e.key = k with
    | some e' => rfl
    | none =>
      by_cases hk : k = e.key
      · simp [hk]
      · simp [hk, Ne.symm hk]

/-! ## The push -/

/-- **Endpoints in batches.** Every chunk that is sent is accepted: it has the length that its `size`
field says, which is within the limit. The chunks make up the list, and a node with its program has
then its old map with the endpoints laid over it in their order. -/
theorem eps_push (env : Env) (w : World) (hr : ∀ e ∈ w.eps, e.InRange) :
    (∀ chunk ∈ pyChunks epBatchMax w.eps, chunk.length ≤ tranMaxEpBatchSize ∧
      Json.getObjectItem "size".toList (epsConf chunk) = some (.num chunk.length) ∧
      trnCliParseEp ((epsConf chunk).map env.num.read) = .ok (chunk.map EpRpc.endpoint)) ∧
    (pyChunks epBatchMax w.eps).flatten = w.eps ∧
    ∃ w', portsUpdateEpsConfig env w = (.ok (), w') ∧ w'.eps = [] ∧
      ∀ n, w'.maps n = if n ∈ w.nodeIps.ips
        then (w.maps n).map fun m => overwrite m (w.eps.map EpRpc.endpoint) else w.maps n := by
  have hmap : ∀ l : List EpRpc, (∀ e ∈ l, e ∈ w.eps) →
      l.map (EpRpc.trnEp env.num) = l.map EpRpc.endpoint := fun l hl =>
    List.map_congr_left fun e he => trnEp_of_inRange env.num (hr e (hl e he))
  have hflat : (pyChunks epBatchMax w.eps).flatten = w.eps := pyChunks_flatten (Nat.succ_pos _) _
  refine ⟨fun chunk hc => ?_, hflat, _, congrFun (portsUpdateEpsConfig_eq env) w, rfl, fun n => ?_⟩
  · have hl : chunk.length ≤ tranMaxEpBatchSize := length_le_of_mem_pyChunks hc
    refine ⟨hl, rfl, ?_⟩
    rw [trnCliParseEp_epsConf env.num chunk hl, hmap chunk fun e he => ?_]
    rw [← hflat]
    exact List.mem_flatten_of_mem hc he
  · refine congrArg (fun f => if n ∈ w.nodeIps.ips then (w.maps n).map f else w.maps n) (funext fun m => ?_)
    rw [updateEndpoints_eq_overwrite, hmap w.eps fun _ he => he]

/-- A manager with 361 entries for one node, the last one under the key of the others. -/
def sampleQueue : World :=
  { World.start ⟨"z".toList, [], []⟩ (.int 8300) with
    nodeIps := NodeIps.empty.insert "172.16.0.1".toList
    maps := fun _ => some fun _ => none
    eps := List.replicate 360 ⟨888, 168427612, 2886734153, 0x1000, 0x2000⟩ ++
      [⟨888, 168427612, 2886734153, 0x3000, 0x2000⟩] }

/-- The last entry, which is in the second chunk, is the one that the node has. -/
theorem eps_push_sample :
    (portsUpdateEpsConfig .default sampleQueue).2.maps "172.16.0.1".toList =
      some (overwrite (fun _ => none) (sampleQueue.eps.map EpRpc.endpoint)) ∧
    overwrite (fun _ => none) (sampleQueue.eps.map EpRpc.endpoint)
      ⟨888, networkWord (octets 4 168427612)⟩ =
      some ⟨networkWord (octets 4 2886734153), octets 6 0x3000, octets 6 0x2000⟩ := by
  constructor
  · obtain ⟨-, -, w', hw, -, hmaps⟩ := eps_push .default sampleQueue (by decide +kernel)
    rw [hw]
    exact (hmaps _).trans (if_pos (by decide +kernel))
  · decide +kernel

end ArionDp
