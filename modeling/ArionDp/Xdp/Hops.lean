import ArionDp.Xdp.Forward

/-!
# Chains of gateways

A frame that a gateway transmits may come to another gateway, or back to the first, whose maps may say
anything. Every transmission takes one from the outer TTL, and none comes after the TTL has run out.

* `ttl_trnArpReply`: the TTL of an answered ARP request;
* **`transit_ttl`**: one hop;
* `Hop`, `forwardRun`, **`forwardRun_ttl`**: chains of hops.
-/

namespace ArionDp

open Wire

/-! ## One hop -/

/-- The outer TTL of a frame. -/
def frameTtl (p : Bytes) : U8 := rd p 22

theorem rd_st32_of_ne (p : Bytes) {o i : ℕ} (v : U32) (h : i < o ∨ o + 4 ≤ i) :
    rd (st32 p o v) i = rd p i := by
  rw [st32, rd_wr_of_ne _ _ (by omega), rd_wr_of_ne _ _ (by omega), rd_wr_of_ne _ _ (by omega),
    rd_wr_of_ne _ _ (by omega)]

/-- Swapping the MAC addresses leaves the rest of the frame alone. -/
theorem rd_trnSwapSrcDstMac_of_le (p : Bytes) {i : ℕ} (h : 12 ≤ i) :
    rd (trnSwapSrcDstMac 0 p) i = rd p i := by
  have hst : ∀ (q : Bytes) (o : ℕ) (v : U16), o ≤ 10 → rd (st16 q o v) i = rd q i :=
    fun q o v ho => rd_st16_of_ne _ _ (by omega) (by omega)
  unfold trnSwapSrcDstMac
  rw [hst _ _ _ (by omega), hst _ _ _ (by omega), hst _ _ _ (by omega), hst _ _ _ (by omega),
    hst _ _ _ (by omega), hst _ _ _ (by omega)]

/-- A frame with the length and the outer TTL of another. -/
structure OuterKept (p q : Bytes) : Prop where
  length : q.length = p.length
  ttl : frameTtl q = frameTtl p

section OuterKept

variable {p q : Bytes} (h : OuterKept p q) {o : ℕ} (ho : 50 ≤ o)

include h ho

theorem OuterKept.st16 (v : U16) : OuterKept p (st16 q o v) :=
  ⟨(length_st16 ..).trans h.length, (rd_st16_of_ne _ _ (by omega) (by omega)).trans h.ttl⟩

theorem OuterKept.st32 (v : U32) : OuterKept p (st32 q o v) :=
  ⟨(length_st32 ..).trans h.length, (rd_st32_of_ne _ _ (by omega)).trans h.ttl⟩

theorem OuterKept.trnSetMac (mac : Bytes → Fin 3 → U16) : OuterKept p (trnSetMac o mac q) :=
  ⟨(length_trnSetMac ..).trans h.length, (rd_trnSetMac_of_ne _ _ (by omega)).trans h.ttl⟩

end OuterKept

/-- **An answered ARP request has lost one of its TTL.** -/
theorem ttl_trnArpReply {pkt : TransitPacket} (ep : Endpoint) (hip : pkt.ip = 14)
    (hin : 50 ≤ pkt.innerEth) (harp : 50 ≤ pkt.innerArp) (hl : 34 ≤ pkt.data.length) :
    frameTtl (trnArpReply pkt ep) = frameTtl pkt.data - 1 := by
  unfold trnArpReply
  extract_lets sha sip tha tip p₁ p₂ p₃ tmpIp p₄ p₅ p₆ p₇ p₈
  -- the inner frame is behind the outer header
  have h₁ : OuterKept pkt.data p₁ := OuterKept.st16 ⟨rfl, rfl⟩ (by omega) _
  have h₃ : OuterKept pkt.data p₃ := (h₁.trnSetMac (by omega) _).trnSetMac (by omega) _
  have h₅ : OuterKept pkt.data p₅ := (h₃.st32 (by omega) _).st32 (by omega) _
  have h₇ : OuterKept pkt.data p₇ := (h₅.trnSetMac (by omega) _).trnSetMac (by omega) _
  have hlen : pkt.ip + 20 ≤ p₇.length := by
    rw [h₇.length]
    omega
  have h₈ : frameTtl p₈ = frameTtl p₇ - 1 := by
    refine (rd_trnSetSrcDstIpCsum p₇ _ _ hlen (by omega) (by omega)).trans ?_
    rw [ipHdrByte, hip, if_pos rfl, frameTtl]
  rw [← h₇.ttl, ← h₈]
  exact rd_trnSwapSrcDstMac_of_le p₈ (by omega)

/-- **One hop**: what is transmitted had a TTL, and has lost one of it. -/
theorem transit_ttl {m : Maps} {ctx : XdpMd} (hv : (transit .compiled m ctx).verdict = .tx) :
    (frameTtl (transit .compiled m ctx).data).toNat + 1 = (frameTtl ctx.data).toNat := by
  have hdec : ∀ t : U8, t ≠ 0 → (t - 1).toNat + 1 = t.toNat := by
    intro t ht
    have hne : t.toNat ≠ 0 := fun hc => ht (BitVec.eq_of_toNat_eq hc)
    have hlt := t.isLt
    rw [BitVec.toNat_sub]
    change (2 ^ 8 - 1 + t.toNat) % 2 ^ 8 + 1 = t.toNat
    omega
  obtain ⟨itf, ent, inner, hc, hf | hf⟩ := transit_frames (.inl hv)
  · obtain ⟨ep, he, hfwd⟩ := forwarded_of_ipFrame hc hf hv
    rw [frameTtl, hfwd.ttl]
    exact hdec _ hf.ttl
  · obtain ⟨v, hverdict, hr, -⟩ := transit_arp hc hf
    rw [hverdict] at hv
    have hlen := hf.request.len
    have hinner := hf.le_length.1
    generalize (transit .compiled m ctx).data = out at hr ⊢
    cases hr with
    | unknown he =>
      rw [transitExit_epNotFound] at hv
      split_ifs at hv
    | @reply ep he =>
      rw [ttl_trnArpReply ep rfl hinner (Nat.le_add_right_of_le hinner)
        (show 34 ≤ ctx.data.length by omega)]
      exact hdec _ hf.ttl

/-! ## Chains -/

/-- A gateway on the way: its maps at that time, and where the frame comes in. -/
structure Hop where
  maps : Maps
  ingressIfindex : U32
  rxQueueIndex : U32

/-- The frames that are transmitted along a chain of gateways; a frame that one of them does not transmit goes no
further. -/
def forwardRun : List Hop → Bytes → List Bytes
  | [], _ => []
  | hop :: hops, p =>
    let out := transit .compiled hop.maps ⟨p, hop.ingressIfindex, hop.rxQueueIndex⟩
    if out.verdict = .tx then out.data :: forwardRun hops out.data else []

/-- **No endless loop.** Whatever the gateways of a chain have in their maps, a frame is transmitted at most
as often as its TTL says. After each transmission the TTL has gone down by one, so that it never wraps. -/
theorem forwardRun_ttl (hops : List Hop) (p : Bytes) :
    (forwardRun hops p).length ≤ (frameTtl p).toNat ∧
      ∀ (k : ℕ) q, (forwardRun hops p)[k]? = some q →
        (frameTtl q).toNat + (k + 1) = (frameTtl p).toNat := by
  induction hops generalizing p with
  | nil => exact ⟨Nat.zero_le _, fun k q hq => nomatch hq⟩
  | cons hop hops ih =>
    rw [forwardRun]
    split_ifs with hv
    · have hone := transit_ttl hv
      obtain ⟨hlen, hall⟩ := ih (transit .compiled hop.maps ⟨p, hop.ingressIfindex, hop.rxQueueIndex⟩).data
      refine ⟨?_, fun k q hq => ?_⟩
      · rw [List.length_cons]
        dsimp only at hone
        omega
      · cases k with
        | zero =>
          obtain rfl := Option.some.inj hq
          exact hone
        | succ k =>
          have hk := hall k q hq
          dsimp only at hone
          omega
    · exact ⟨Nat.zero_le _, fun k q hq => nomatch hq⟩

end ArionDp
