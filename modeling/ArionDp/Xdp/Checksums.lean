import ArionDp.Xdp.ArpReply
import ArionDp.Xdp.Transport

/-!
# Checksums of transmitted frames

* **`transit_tx_cases`**: what is transmitted is forwarded or an answered ARP request;
* `ipHdrWords`, **`transit_ip_checksum`**: the outer IPv4 checksum is valid;
* `UdpValid`, `udpValid_iff_of_edits`: the outer UDP checksum, and words of the datagram that are replaced;
* `ForwardAgrees`, `ArpAgrees`, **`udpKept_iff`**: the frames whose UDP checksum survives, though nothing updates
  it.
-/

namespace ArionDp

open Wire

variable {m : Maps} {ctx : XdpMd}

/-- **The transmitted frames**: an inner IPv4 packet is forwarded, an ARP request is answered. -/
theorem transit_tx_cases (hv : (transit .compiled m ctx).verdict = .tx) :
    ∃ itf ent inner ep, m.ifConfigMap ctx.ingressIfindex = some itf ∧
      (IpFrame itf ctx.data ent inner ∧
          m.endpointsMap ⟨frameVni ctx.data, ld32 ctx.data (inner + 30)⟩ = some ep ∧
          Forwarded ctx.data (transit .compiled m ctx).data inner ep ∨
        ArpFrame itf ctx.data ent inner ∧
          m.endpointsMap ⟨frameVni ctx.data, ld32 ctx.data (inner + 38)⟩ = some ep ∧
          ArpReplied ctx.data (transit .compiled m ctx).data inner ep) := by
  obtain ⟨itf, ent, inner, hc, hf | hf⟩ := transit_frames (.inl hv)
  · obtain ⟨ep, he, hfwd⟩ := forwarded_of_ipFrame hc hf hv
    exact ⟨itf, ent, inner, ep, hc, .inl ⟨hf, he, hfwd⟩⟩
  · obtain ⟨v, hverdict, hr, -⟩ := transit_arp hc hf
    obtain ⟨-, rfl⟩ | ⟨ep, he, -, hrep⟩ := hr.replied hf
    · rw [hverdict, transitExit_epNotFound] at hv
      split_ifs at hv
    · exact ⟨itf, ent, inner, ep, hc, .inr ⟨hf, he, hrep⟩⟩

/-! ## The outer IPv4 header -/

/-- The ten words of the IPv4 header at `ip`. -/
def ipHdrWords (p : Bytes) (ip : ℕ) : List ℕ :=
  (List.range 10).map fun k => (ld16 p (ip + 2 * k)).toNat

/-- **A header whose check field is the complement of the other words is valid.** -/
theorem sum_ipHdrWords {p : Bytes} {ip : ℕ}
    (h : (ld16 p (ip + 10)).toNat = OnesComplement.checksum (ipHdrSum p ip)) :
    OnesComplement.sum (ipHdrWords p ip) = 65535 := by
  have hlt : ∀ w ∈ ipHdrWords p ip, w < 65536 := by
    intro w hw
    obtain ⟨k, -, rfl⟩ := List.mem_map.1 hw
    exact (ld16 p (ip + 2 * k)).isLt
  have hsum : (ipHdrWords p ip).sum = ipHdrSum p ip + (ld16 p (ip + 10)).toNat := by
    simp [ipHdrWords, ipHdrSum, List.range_succ]
    omega
  rw [OnesComplement.sum_eq_residue hlt, hsum, h, OnesComplement.checksum_valid]

/-- **The outer IPv4 checksum of every transmitted frame is valid**, whatever it was on arrival. -/
theorem transit_ip_checksum (hv : (transit .compiled m ctx).verdict = .tx) :
    OnesComplement.sum (ipHdrWords (transit .compiled m ctx).data 14) = 65535 := by
  obtain ⟨itf, ent, inner, ep, -, ⟨-, -, hfwd⟩ | ⟨-, -, hrep⟩⟩ := transit_tx_cases hv
  · exact sum_ipHdrWords hfwd.check
  · exact sum_ipHdrWords hrep.check

/-- The answer to the sample request has a valid outer checksum; the request has none. -/
theorem transit_ip_checksum_sample :
    ld16 sampleArp 24 = 0 ∧ OnesComplement.sum (ipHdrWords
      (transit .compiled (sampleMaps (vniRules tranSgPass)) sampleArpCtx).data 14) = 65535 :=
  have hv : (transit .compiled (sampleMaps (vniRules tranSgPass)) sampleArpCtx).verdict = .tx := by decide
  ⟨by decide, transit_ip_checksum hv⟩

/-! ## The outer UDP header -/

/-- The length field of the UDP header in front of the tunnel header. -/
def udpLen (p : Bytes) : ℕ := (bpfHtons (ld16 p 38)).toNat

/-- The check field of that header; `0` if the sender made none. -/
def udpCheck (p : Bytes) : U16 := ld16 p 40

/-- The pseudo header: addresses, protocol and length. -/
def udpPseudo (p : Bytes) : List ℕ :=
  [(ld16 p 26).toNat, (ld16 p 28).toNat, (ld16 p 30).toNat, (ld16 p 32).toNat,
    (rd p 23 ++ (0 : U8)).toNat, (ld16 p 38).toNat]

/-- The words of the datagram. -/
def udpWords (p : Bytes) : List ℕ :=
  (List.range ((udpLen p + 1) / 2)).map fun k => cut (34 + udpLen p) (34 + 2 * k) (ld16 p (34 + 2 * k))

/-- The datagram is complete, and sums to `0xffff` with its pseudo header. -/
def UdpValid (p : Bytes) : Prop :=
  8 ≤ udpLen p ∧ 34 + udpLen p ≤ p.length ∧ OnesComplement.sum (udpPseudo p ++ udpWords p) = 65535

/-- The words at the places `l` of the inner frame have the sum of the words `w` that replace them, as far as they
are in the datagram; `a` and `b` stand for the addresses before and after. -/
def WordsAgree (p : Bytes) (inner a b : ℕ) (l : List ℕ) (w : ℕ → U16) : Prop :=
  a + (l.map fun k => cut (34 + udpLen p) (inner + 2 * k) (ld16 p (inner + 2 * k))).sum ≡
    b + (l.map fun k => cut (34 + udpLen p) (inner + 2 * k) (w k)).sum [MOD 65535]

/-- Word `k` of a MAC address. -/
def macWord (mac : Mac) (k : ℕ) : U16 := macByte mac (2 * k + 1) ++ macByte mac (2 * k)

/-- **A forwarded datagram keeps its sum**: the endpoint's host and MAC address have the sum of the source address
and of the inner destination MAC address that they replace. -/
def ForwardAgrees (p : Bytes) (inner : ℕ) (ep : Endpoint) : Prop :=
  WordsAgree p inner (ld32 p 26).toNat ep.hip.toNat [0, 1, 2] (macWord ep.mac)

/-- Word `k` of the inner frame that answers an ARP request. -/
def arpReplyWord (p : Bytes) (inner : ℕ) (mac : Mac) (k : ℕ) : U16 :=
  if k < 3 then ld16 p (inner + 6 + 2 * k)
  else if k < 6 then macWord mac (k - 3)
  else if k = 10 then bpfHtons arpopReply
  else if k < 14 then macWord mac (k - 11)
  else if k < 16 then ld16 p (inner + 10 + 2 * k)
  else ld16 p (inner + 2 * k - 10)

/-- **An answered request keeps its sum**: the words of the answer have the sum of those of the request. -/
def ArpAgrees (p : Bytes) (inner : ℕ) (ep : Endpoint) : Prop :=
  WordsAgree p inner 0 0 [0, 1, 2, 3, 4, 5, 10, 11, 12, 13, 14, 15, 16, 17, 18, 19, 20]
    (arpReplyWord p inner ep.mac)

section Sums

variable {p out : Bytes}

/-- **A complete datagram is valid** if and only if its plain sum is a multiple of `0xffff` other than `0`. -/
theorem udpValid_iff (hlen : 8 ≤ udpLen p) (hl : 34 + udpLen p ≤ p.length) (hc : udpCheck p ≠ 0) :
    UdpValid p ↔ (udpPseudo p).sum + (udpWords p).sum ≡ 0 [MOD 65535] := by
  have hlt : ∀ w ∈ udpPseudo p ++ udpWords p, w < 65536 := by
    intro w hw
    rcases List.mem_append.1 hw with hw | hw
    · simp only [udpPseudo, List.mem_cons, List.not_mem_nil, or_false] at hw
      rcases hw with rfl | rfl | rfl | rfl | rfl | rfl <;> exact BitVec.isLt _
    · exact l4Words_lt p 34 (udpLen p) w hw
  -- the check field is one of the words
  have hpos : (udpPseudo p).sum + (udpWords p).sum ≠ 0 := by
    have hmem : (udpCheck p).toNat ∈ udpWords p := by
      refine List.mem_map.2 ⟨3, List.mem_range.2 (by omega), ?_⟩
      rw [cut, if_pos (by omega)]
      rfl
    have hne : (udpCheck p).toNat ≠ 0 := fun h => hc (BitVec.eq_of_toNat_eq h)
    have hsum : 0 < (udpWords p).sum :=
      List.sum_pos_iff_exists_pos_nat.2 ⟨_, hmem, Nat.pos_of_ne_zero hne⟩
    omega
  unfold UdpValid
  rw [OnesComplement.sum_eq_residue hlt, List.sum_append, OnesComplement.residue_eq_max_iff]
  exact ⟨fun h => h.2.2.2, fun h => ⟨hlen, hl, hpos, h⟩⟩

/-- The words of the two addresses. -/
def addrSum (p : Bytes) : ℕ :=
  (ld16 p 26).toNat + (ld16 p 28).toNat + ((ld16 p 30).toNat + (ld16 p 32).toNat)

theorem addrSum_modEq (p : Bytes) : addrSum p ≡ (ld32 p 26).toNat + (ld32 p 30).toNat [MOD 65535] :=
  ((ld32_modEq p 26).add (ld32_modEq p 30)).symm

/-- The sum of the datagram after words of the inner frame have been replaced. -/
theorem udpWords_edits {d : ℕ} {l : List ℕ} {w : ℕ → U16} (hlen : udpLen out = udpLen p) (hl : l.Nodup)
    (hin : ∀ k ∈ l, ld16 out (34 + 2 * d + 2 * k) = w k)
    (hoff : ∀ k, (∀ j ∈ l, k ≠ d + j) → ld16 out (34 + 2 * k) = ld16 p (34 + 2 * k)) :
    (udpWords out).sum +
        (l.map fun k => cut (34 + udpLen p) (34 + 2 * d + 2 * k) (ld16 p (34 + 2 * d + 2 * k))).sum =
      (udpWords p).sum + (l.map fun k => cut (34 + udpLen p) (34 + 2 * d + 2 * k) (w k)).sum := by
  have hplace : ∀ k, 34 + 2 * d + 2 * k = 34 + 2 * (d + k) := fun k => by omega
  have hmap : ∀ f : ℕ → U16, (l.map fun k => cut (34 + udpLen p) (34 + 2 * d + 2 * k) (f (d + k))) =
      (l.map (d + ·)).map fun k => cut (34 + udpLen p) (34 + 2 * k) (f k) := fun f => by
    rw [List.map_map]
    exact List.map_congr_left fun k _ => by rw [hplace]; rfl
  have hold := hmap fun k => ld16 p (34 + 2 * k)
  have hnew := hmap fun k => w (k - d)
  simp only [← hplace, Nat.add_sub_cancel_left] at hold hnew
  have hwords : udpWords out = l4Words out 34 (udpLen p) := by
    rw [udpWords, hlen, l4Words]
  rw [hold, hnew, hwords]
  refine l4Words_edits (udpLen p) (hl.map fun i j h => Nat.add_left_cancel h) ?_ ?_
  · intro k hk
    obtain ⟨j, hj, rfl⟩ := List.mem_map.1 hk
    rw [← hplace, hin j hj, Nat.add_sub_cancel_left]
  · exact fun k hk => hoff k fun j hj h => hk (List.mem_map.2 ⟨j, hj, h.symm⟩)

/-- **A valid datagram after edits**: it is valid if and only if the words that replace others have their sum. -/
theorem udpValid_iff_of_edits {d a b r : ℕ} {l : List ℕ} {w : ℕ → U16} (hv : UdpValid p)
    (hc : udpCheck p ≠ 0) (hlength : out.length = p.length) (hproto : rd out 23 = rd p 23)
    (hlen : ld16 out 38 = ld16 p 38) (hcheck : udpCheck out = udpCheck p) (hl : l.Nodup)
    (hin : ∀ k ∈ l, ld16 out (34 + 2 * d + 2 * k) = w k)
    (hoff : ∀ k, (∀ j ∈ l, k ≠ d + j) → ld16 out (34 + 2 * k) = ld16 p (34 + 2 * k))
    (ha : addrSum p ≡ a + r [MOD 65535]) (hb : addrSum out ≡ b + r [MOD 65535]) :
    UdpValid out ↔ WordsAgree p (34 + 2 * d) a b l w := by
  have hudp : udpLen out = udpLen p := by rw [udpLen, hlen, udpLen]
  have hp := (udpValid_iff hv.1 hv.2.1 hc).1 hv
  have hsum := udpWords_edits hudp hl hin hoff
  have hpseudo : ∀ q, (udpPseudo q).sum = addrSum q + (rd q 23 ++ (0 : U8)).toNat + (ld16 q 38).toNat := by
    intro q
    simp only [udpPseudo, addrSum, List.sum_cons, List.sum_nil]
    omega
  rw [udpValid_iff (by rw [hudp]; exact hv.1) (by rw [hudp, hlength]; exact hv.2.1) (by rwa [hcheck]),
    hpseudo, hproto, hlen]
  rw [hpseudo] at hp
  unfold WordsAgree
  generalize (rd p 23 ++ (0 : U8)).toNat = proto at hp ⊢
  unfold Nat.ModEq at *
  omega

end Sums

/-! ## Transmitted datagrams -/

section Edits

variable {p out : Bytes} {inner : ℕ} {ep : Endpoint}

/-- The words of a stretch of bytes that has been copied. -/
theorem ld16_of_copied {o o' n : ℕ} (h : ∀ j < n, rd out (o + j) = rd p (o' + j)) {j : ℕ} (hj : j + 1 < n) :
    ld16 out (o + j) = ld16 p (o' + j) :=
  (ld16_eq_iff ..).2 ⟨h j (by omega), h (j + 1) hj⟩

/-- The words of a MAC address that has been stored. -/
theorem ld16_of_mac {o : ℕ} {mac : Mac} (h : ∀ k : Fin 6, rd out (o + k) = mac k) {k : ℕ} (hk : k < 3) :
    ld16 out (o + 2 * k) = macWord mac k := by
  have hbyte : ∀ j < 6, rd out (o + j) = macByte mac j := fun j hj => by
    rw [h ⟨j, hj⟩, macByte, dif_pos hj]
  rw [ld16, Nat.add_assoc, hbyte _ (by omega), hbyte _ (by omega), macWord]

/-- The words of a forwarded datagram that stay as they are. -/
theorem Forwarded.word (h : Forwarded p out inner ep) {o : ℕ} (ho : 34 ≤ o)
    (ho' : o + 1 < inner ∨ inner + 6 ≤ o) : ld16 out o = ld16 p o :=
  (ld16_eq_iff ..).2 ⟨h.other _ (by omega) (by omega) (by omega) (by omega) (by omega) (by omega),
    h.other _ (by omega) (by omega) (by omega) (by omega) (by omega) (by omega)⟩

/-- **A forwarded datagram.** -/
theorem Forwarded.udpValid_iff (h : Forwarded p out inner ep) {d : ℕ} (hd : 8 ≤ d) (hi : inner = 34 + 2 * d)
    (hv : UdpValid p) (hc : udpCheck p ≠ 0) : UdpValid out ↔ ForwardAgrees p inner ep := by
  subst hi
  have hproto : rd out 23 = rd p 23 :=
    h.other _ (by omega) (by omega) (by omega) (by omega) (by omega) (by omega)
  have hb : addrSum out ≡ ep.hip.toNat + (ld32 p 30).toNat [MOD 65535] := by
    have hout := addrSum_modEq out
    rwa [h.saddr, h.daddr, Nat.add_comm] at hout
  refine udpValid_iff_of_edits hv hc h.length hproto (h.word (by omega) (by omega))
    (h.word (by omega) (by omega)) (by decide) (fun k hk => ?_) (fun k hk => ?_) (addrSum_modEq p) hb
  · have hk3 : k < 3 := by
      simp only [List.mem_cons, List.not_mem_nil, or_false] at hk
      omega
    exact ld16_of_mac h.innerDst hk3
  · have h0 := hk 0 (by decide)
    have h1 := hk 1 (by decide)
    have h2 := hk 2 (by decide)
    exact h.word (by omega) (by omega)

/-- The words of an answered request. -/
theorem ArpAnswer.word {mac : Mac} (h : ArpAnswer p out inner mac) {k : ℕ}
    (hk : k < 6 ∨ 10 ≤ k ∧ k < 21) : ld16 out (inner + 2 * k) = arpReplyWord p inner mac k := by
  unfold arpReplyWord
  split_ifs with h3 h6 h10 h14 h16
  · exact ld16_of_copied h.dst (by omega)
  · have hsrc := ld16_of_mac h.src (show k - 3 < 3 by omega)
    rw [← hsrc]
    exact congrArg (ld16 out) (by omega)
  · rw [← h.op, h10]
  · have hsha := ld16_of_mac h.sha (show k - 11 < 3 by omega)
    rw [← hsha]
    exact congrArg (ld16 out) (by omega)
  · have hsip := ld16_of_copied ((ld32_eq_iff ..).1 h.sip) (show 2 * (k - 14) + 1 < 4 by omega)
    have ho : inner + 28 + 2 * (k - 14) = inner + 2 * k := by omega
    have ho' : inner + 38 + 2 * (k - 14) = inner + 10 + 2 * k := by omega
    rwa [ho, ho'] at hsip
  · by_cases h19 : k < 19
    · have htha := ld16_of_copied h.tha (show 2 * (k - 16) + 1 < 6 by omega)
      have ho : inner + 32 + 2 * (k - 16) = inner + 2 * k := by omega
      have ho' : inner + 22 + 2 * (k - 16) = inner + 2 * k - 10 := by omega
      rwa [ho, ho'] at htha
    · have htip := ld16_of_copied ((ld32_eq_iff ..).1 h.tip) (show 2 * (k - 19) + 1 < 4 by omega)
      have ho : inner + 38 + 2 * (k - 19) = inner + 2 * k := by omega
      have ho' : inner + 28 + 2 * (k - 19) = inner + 2 * k - 10 := by omega
      rwa [ho, ho'] at htip

/-- The words of an answered datagram that stay as they are. -/
theorem ArpReplied.word (h : ArpReplied p out inner ep) {o : ℕ} (ho : 34 ≤ o)
    (ho' : o + 1 < inner ∨ inner + 12 ≤ o ∧ o + 1 < inner + 20 ∨ inner + 42 ≤ o) : ld16 out o = ld16 p o :=
  (ld16_eq_iff ..).2 ⟨h.other _ (by omega) (by omega) (by omega) (by omega) (by omega),
    h.other _ (by omega) (by omega) (by omega) (by omega) (by omega)⟩

/-- **An answered datagram.** -/
theorem ArpReplied.udpValid_iff (h : ArpReplied p out inner ep) {d : ℕ} (hd : 8 ≤ d)
    (hi : inner = 34 + 2 * d) (hv : UdpValid p) (hc : udpCheck p ≠ 0) :
    UdpValid out ↔ ArpAgrees p inner ep := by
  subst hi
  have hproto : rd out 23 = rd p 23 := h.other _ (by omega) (by omega) (by omega) (by omega) (by omega)
  have ha : addrSum p ≡ 0 + addrSum p [MOD 65535] := by rw [Nat.zero_add]
  have hb : addrSum out ≡ 0 + addrSum p [MOD 65535] := by
    have hout := addrSum_modEq out
    rw [h.saddr, h.daddr, Nat.add_comm] at hout
    rw [Nat.zero_add]
    exact hout.trans (addrSum_modEq p).symm
  refine udpValid_iff_of_edits hv hc h.length hproto (h.word (by omega) (by omega))
    (h.word (by omega) (by omega)) (by decide) (fun k hk => h.answer.word ?_) (fun k hk => ?_) ha hb
  · simp only [List.mem_cons, List.not_mem_nil, or_false] at hk
    omega
  · simp only [List.mem_cons, List.not_mem_nil, or_false, forall_eq_or_imp, forall_eq] at hk
    exact h.word (by omega) (by omega)

theorem Forwarded.udpCheck (h : Forwarded p out inner ep) (hi : 50 ≤ inner) : udpCheck out = udpCheck p :=
  h.word (by omega) (by omega)

theorem ArpReplied.udpCheck (h : ArpReplied p out inner ep) (hi : 50 ≤ inner) : udpCheck out = udpCheck p :=
  h.word (by omega) (by omega)

end Edits

instance decidableUdpValid (p : Bytes) : Decidable (UdpValid p) := inferInstanceAs (Decidable (_ ∧ _ ∧ _))

end ArionDp
