import ArionDp.Xdp.Rewrite

/-!
# Transport checksums

The checksum of a TCP segment or UDP datagram covers a pseudo header and the words of the segment, an odd last byte
padded with zero.

* `cut`, `l4Words`, **`l4Words_edits`**: the words from one place on, and some of them replaced;
* `L4Segment`: a complete segment behind an IPv4 header; `l4Sum`, `L4Valid`: its checksum is valid;
* `l4Recomputed`, **`l4Right_iff`**: the stored checksum and the one computed from scratch;
* **`l4Sum_edits`**: the sum after words of the segment and the addresses have been replaced.
-/

namespace ArionDp

open Wire

/-! ## Words of a segment -/

/-- What a word at offset `o` adds to the sum over a datagram that ends at `e`: an odd last byte is padded with
zero, and what is behind the end does not count. -/
def cut (e o : ℕ) (w : U16) : ℕ := if o + 1 < e then w.toNat else if o < e then (byte w 0).toNat else 0

theorem cut_lt (e o : ℕ) (w : U16) : cut e o w < 65536 := by
  unfold cut
  split_ifs
  · exact w.isLt
  · exact lt_of_lt_of_le (byte w 0).isLt (by omega)
  · omega

theorem cut_of_le {e o : ℕ} (w : U16) (h : e ≤ o) : cut e o w = 0 := by
  rw [cut, if_neg (by omega), if_neg (by omega)]

theorem cut_of_lt {e o : ℕ} (w : U16) (h : o + 1 < e) : cut e o w = w.toNat := if_pos h

/-- A 32-bit word is congruent to the sum of its halves. -/
theorem ld32_modEq (p : Bytes) (o : ℕ) :
    (ld32 p o).toNat ≡ (ld16 p o).toNat + (ld16 p (o + 2)).toNat [MOD 65535] := by
  have hlt := (ld16 p o).isLt
  rw [ld32, BitVec.toNat_append, ← Nat.shiftLeft_add_eq_or_of_lt hlt, Nat.shiftLeft_eq]
  unfold Nat.ModEq
  omega

/-- The complement of a checksum, as an update starts with it. -/
theorem toNat_csumComplement (c : U16) : (~~~ (c.setWidth 64 : U64) &&& 0xffff#64).toNat = 65535 - c.toNat := by
  have hc := c.isLt
  rw [BitVec.toNat_and, BitVec.toNat_not, BitVec.toNat_setWidth_of_le (by decide)]
  refine (Nat.and_two_pow_sub_one_eq_mod _ 16).trans ?_
  omega

/-- The words of the `len` bytes from offset `o` on. -/
def l4Words (p : Bytes) (o len : ℕ) : List ℕ :=
  (List.range ((len + 1) / 2)).map fun k => cut (o + len) (o + 2 * k) (ld16 p (o + 2 * k))

theorem l4Words_lt (p : Bytes) (o len : ℕ) : ∀ w ∈ l4Words p o len, w < 65536 := by
  intro w hw
  obtain ⟨k, -, rfl⟩ := List.mem_map.1 hw
  exact cut_lt ..

/-- **The sum of the words after some of them have been replaced.** -/
theorem l4Words_edits {p out : Bytes} {o : ℕ} (len : ℕ) {l : List ℕ} {w : ℕ → U16} (hl : l.Nodup)
    (hin : ∀ k ∈ l, ld16 out (o + 2 * k) = w k)
    (hoff : ∀ k ∉ l, ld16 out (o + 2 * k) = ld16 p (o + 2 * k)) :
    (l4Words out o len).sum + (l.map fun k => cut (o + len) (o + 2 * k) (ld16 p (o + 2 * k))).sum =
      (l4Words p o len).sum + (l.map fun k => cut (o + len) (o + 2 * k) (w k)).sum := by
  let word (q : Bytes) (k : ℕ) : ℕ := cut (o + len) (o + 2 * k) (ld16 q (o + 2 * k))
  have hsum := OnesComplement.sum_update hl ((len + 1) / 2)
    (fun k hk => show word out k = word p k from congrArg (cut _ _) (hoff k hk))
    (fun k _ hk => ⟨cut_of_le _ (by omega), cut_of_le _ (by omega)⟩)
  have hnew : l.map (word out) = l.map fun k => cut (o + len) (o + 2 * k) (w k) :=
    List.map_congr_left fun k hk => congrArg (cut _ _) (hin k hk)
  rw [hnew] at hsum
  exact hsum

/-! ## Inner segments -/

/-- The length of the segment at `o` behind the IPv4 header at `ip`: what the UDP header says, and for TCP what the
IPv4 header leaves. -/
def segmentLen (p : Bytes) (ip o : ℕ) : ℕ :=
  if rd p (ip + 9) = ipprotoUdp then (bpfHtons (ld16 p (o + 4))).toNat
  else (bpfHtons (ld16 p (ip + 2))).toNat - (o - ip)

/-- The word of the segment that is its checksum. -/
def l4CheckWord (p : Bytes) (ip : ℕ) : ℕ := if rd p (ip + 9) = ipprotoUdp then 3 else 8

theorem l4CheckWord_cases (p : Bytes) (ip : ℕ) : l4CheckWord p ip = 3 ∨ l4CheckWord p ip = 8 := by
  unfold l4CheckWord
  split_ifs
  exacts [.inl rfl, .inr rfl]

/-- The stored checksum. -/
def l4Check (p : Bytes) (ip o : ℕ) : U16 := ld16 p (o + 2 * l4CheckWord p ip)

/-- A complete TCP segment or UDP datagram at `o` behind the IPv4 header at `ip`. -/
structure L4Segment (p : Bytes) (ip o : ℕ) : Prop where
  protocol : rd p (ip + 9) = ipprotoTcp ∨ rd p (ip + 9) = ipprotoUdp
  header : ip + sizeofIphdr ≤ o
  room : (if rd p (ip + 9) = ipprotoUdp then sizeofUdphdr else sizeofTcphdr) ≤ segmentLen p ip o
  complete : o + segmentLen p ip o ≤ p.length

/-- The pseudo header: addresses, protocol and length. -/
def l4Pseudo (p : Bytes) (ip len : ℕ) : List ℕ :=
  [(ld16 p (ip + 12)).toNat, (ld16 p (ip + 14)).toNat, (ld16 p (ip + 16)).toNat, (ld16 p (ip + 18)).toNat,
    (rd p (ip + 9) ++ (0 : U8)).toNat, (bpfHtons (BitVec.ofNat 16 len)).toNat]

/-- All that the checksum covers. -/
def l4Sum (p : Bytes) (ip o : ℕ) : List ℕ :=
  l4Pseudo p ip (segmentLen p ip o) ++ l4Words p o (segmentLen p ip o)

/-- **The checksum is valid**: all words add up to `0xffff`. -/
def L4Valid (p : Bytes) (ip o : ℕ) : Prop := OnesComplement.sum (l4Sum p ip o) = 65535

instance decidableL4Valid (p : Bytes) (ip o : ℕ) : Decidable (L4Valid p ip o) :=
  inferInstanceAs (Decidable (_ = _))

/-- The checksum of the segment from scratch, the check field taken as zero. -/
def l4Recomputed (p : Bytes) (ip o : ℕ) : ℕ :=
  65535 - OnesComplement.sum (l4Sum (st16 p (o + 2 * l4CheckWord p ip) 0) ip o)

/-- **The stored checksum is right**: it is the one computed from scratch, modulo `0xffff`. -/
def L4Right (p : Bytes) (ip o : ℕ) : Prop := (l4Check p ip o).toNat ≡ l4Recomputed p ip o [MOD 65535]

instance decidableL4Right (p : Bytes) (ip o : ℕ) : Decidable (L4Right p ip o) :=
  inferInstanceAs (Decidable (_ % _ = _ % _))

theorem l4Sum_lt (p : Bytes) (ip o : ℕ) : ∀ w ∈ l4Sum p ip o, w < 65536 := by
  intro w hw
  rcases List.mem_append.1 hw with hw | hw
  · simp only [l4Pseudo, List.mem_cons, List.not_mem_nil, or_false] at hw
    rcases hw with rfl | rfl | rfl | rfl | rfl | rfl <;> exact BitVec.isLt _
  · exact l4Words_lt p o _ w hw

/-- The words of the two addresses of the header at `ip`. -/
def l4Addrs (p : Bytes) (ip : ℕ) : ℕ :=
  (ld16 p (ip + 12)).toNat + (ld16 p (ip + 14)).toNat + ((ld16 p (ip + 16)).toNat + (ld16 p (ip + 18)).toNat)

theorem l4Addrs_modEq (p : Bytes) (ip : ℕ) :
    l4Addrs p ip ≡ (ld32 p (ip + 12)).toNat + (ld32 p (ip + 16)).toNat [MOD 65535] :=
  ((ld32_modEq p (ip + 12)).add (ld32_modEq p (ip + 16))).symm

variable {p out : Bytes} {ip o : ℕ}

theorem sum_l4Sum (p : Bytes) (ip o : ℕ) :
    (l4Sum p ip o).sum = l4Addrs p ip + (rd p (ip + 9) ++ (0 : U8)).toNat +
      (bpfHtons (BitVec.ofNat 16 (segmentLen p ip o))).toNat + (l4Words p o (segmentLen p ip o)).sum := by
  simp only [l4Sum, l4Pseudo, l4Addrs, List.sum_append, List.sum_cons, List.sum_nil]
  omega

theorem L4Segment.checkWord_lt (h : L4Segment p ip o) : 2 * l4CheckWord p ip + 1 < segmentLen p ip o := by
  have hroom : (if rd p (ip + 9) = ipprotoUdp then 8 else 20) ≤ segmentLen p ip o := h.room
  unfold l4CheckWord
  split_ifs at hroom ⊢ <;> omega

/-- The protocol is not zero, and so is no sum. -/
theorem L4Segment.sum_pos (h : L4Segment p ip o) : (l4Sum p ip o).sum ≠ 0 := by
  have hproto : (rd p (ip + 9) ++ (0 : U8)).toNat ≠ 0 := by
    obtain h | h := h.protocol <;> rw [h] <;> decide
  rw [sum_l4Sum]
  omega

/-- **A segment is valid** if and only if its plain sum is a multiple of `0xffff`. -/
theorem L4Segment.valid_iff (h : L4Segment p ip o) : L4Valid p ip o ↔ (l4Sum p ip o).sum ≡ 0 [MOD 65535] := by
  rw [L4Valid, OnesComplement.sum_eq_residue (l4Sum_lt p ip o), OnesComplement.residue_eq_max_iff]
  exact ⟨And.right, fun hm => ⟨h.sum_pos, hm⟩⟩

/-- **The sum after edits**: the length and protocol are as before, and so are the words of the segment but for
those with numbers in `l`. -/
theorem l4Sum_edits (p out : Bytes) (ip o : ℕ) {l : List ℕ} {w : ℕ → U16} (hl : l.Nodup) (hlen : 2 ∉ l)
    (hproto : rd out (ip + 9) = rd p (ip + 9)) (htot : ld16 out (ip + 2) = ld16 p (ip + 2))
    (hin : ∀ k ∈ l, ld16 out (o + 2 * k) = w k)
    (hoff : ∀ k ∉ l, ld16 out (o + 2 * k) = ld16 p (o + 2 * k)) :
    segmentLen out ip o = segmentLen p ip o ∧
      (l4Sum out ip o).sum + l4Addrs p ip +
          (l.map fun k => cut (o + segmentLen p ip o) (o + 2 * k) (ld16 p (o + 2 * k))).sum =
        (l4Sum p ip o).sum + l4Addrs out ip +
          (l.map fun k => cut (o + segmentLen p ip o) (o + 2 * k) (w k)).sum := by
  have hsame : segmentLen out ip o = segmentLen p ip o := by
    have h2 : ld16 out (o + 4) = ld16 p (o + 4) := hoff 2 hlen
    rw [segmentLen, hproto, htot, h2, segmentLen]
  refine ⟨hsame, ?_⟩
  have hwords := l4Words_edits (segmentLen p ip o) hl hin hoff
  rw [sum_l4Sum, sum_l4Sum, hsame, hproto]
  omega

/-- An edited segment is still complete. -/
theorem L4Segment.congr (h : L4Segment p ip o) (hproto : rd out (ip + 9) = rd p (ip + 9))
    (hlen : segmentLen out ip o = segmentLen p ip o) (hl : out.length = p.length) : L4Segment out ip o where
  protocol := by rw [hproto]; exact h.protocol
  header := h.header
  room := by rw [hproto, hlen]; exact h.room
  complete := by rw [hlen, hl]; exact h.complete

/-- **The stored checksum is right** if and only if the plain sum is a multiple of `0xffff`. -/
theorem L4Segment.right_iff (h : L4Segment p ip o) : L4Right p ip o ↔ (l4Sum p ip o).sum ≡ 0 [MOD 65535] := by
  have hcw := h.checkWord_lt
  have hheader : ip + 20 ≤ o := h.header
  have hcomplete := h.complete
  have hcases := l4CheckWord_cases p ip
  rw [L4Right, l4Recomputed, l4Check]
  generalize l4CheckWord p ip = c at hcw hcases ⊢
  obtain ⟨-, hsum⟩ := l4Sum_edits p (st16 p (o + 2 * c) 0) ip o (l := [c])
    (w := fun _ => 0) (by simp) (by simp; omega)
    (rd_st16_of_ne _ _ (by omega) (by omega)) (ld16_st16_of_ne _ _ (by omega))
    (fun k hk => by rw [List.mem_singleton.1 hk]; exact ld16_st16 _ _ (by omega))
    (fun k hk => ld16_st16_of_ne _ _ (by simp at hk; omega))
  have haddrs : l4Addrs (st16 p (o + 2 * c) 0) ip = l4Addrs p ip := by
    unfold l4Addrs
    rw [ld16_st16_of_ne _ _ (by omega), ld16_st16_of_ne _ _ (by omega), ld16_st16_of_ne _ _ (by omega),
      ld16_st16_of_ne _ _ (by omega)]
  simp only [List.map_cons, List.map_nil, List.sum_cons, List.sum_nil, haddrs] at hsum
  rw [cut_of_lt _ (by omega), cut_of_lt _ (by omega)] at hsum
  rw [OnesComplement.sum_eq_residue (l4Sum_lt _ ip o)]
  have hle := OnesComplement.residue_le (l4Sum (st16 p (o + 2 * c) 0) ip o).sum
  have hmod := OnesComplement.residue_modEq (l4Sum (st16 p (o + 2 * c) 0) ip o).sum
  have hz : (0 : U16).toNat = 0 := rfl
  unfold Nat.ModEq
  omega

end ArionDp
