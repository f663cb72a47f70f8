import KernelBypass.Xdp.IcmpEcho

namespace KernelBypass.Xdp.IcmpChecksum

open Foundation Buffer OnesComplement Linux Readdress IcmpEcho

structure Request (p : Frame) : Prop extends Answered p where
  header : 5 ≤ ihl p
  covered : 4 * ihl p + 8 ≤ totLen p
  inside : 14 + totLen p ≤ p.length

def icmpChecksum (p : Frame) : ℕ := netWord p (l4Offset p + 2)

def icmpTail (p : Frame) : List UInt8 := slice p (l4Offset p + 4) (totLen p - 4 * ihl p - 4)

section Message

variable {order : ByteOrder} {p : Frame}

theorem Request.l4Message_eq (h : Request p) : l4Message p =
    8 :: cell p (l4Offset p + 1) :: cell p (l4Offset p + 2) :: cell p (l4Offset p + 3) ::
      icmpTail p := by
  have hfit := h.fitsIcmp
  have hcov := h.covered
  obtain ⟨n, hn⟩ : ∃ n, totLen p - 4 * ihl p = n + 4 := ⟨totLen p - 4 * ihl p - 4, by omega⟩
  rw [l4Message, icmpTail, hn, slice_succ (by omega), slice_succ (by omega), slice_succ (by omega),
    slice_succ (by omega), h.echo]
  rfl

theorem Request.totLen_replyWith (h : Request p) (v : UInt16) :
    totLen (replyWith order v p) = totLen p := by
  have hlen := h.fits
  refine netWord_congr ?_ ?_ <;>
    rw [h.cell_replyWith_of_header h.header v (by omega), cell_readdress_of_fixed (by omega) (by omega)]

theorem Request.l4Message_replyWith (h : Request p) (v : UInt16) :
    l4Message (replyWith order v p) =
      0 :: cell p (l4Offset p + 1) :: (order.bytes16 v ++ icmpTail p) := by
  have hlen := h.fits
  have hfit := h.fitsIcmp
  have hcov := h.covered
  have hin := h.inside
  have hihl := h.header
  have hoff : l4Offset p = 14 + 4 * ihl p := rfl
  have hq : (replyWith order v p).length = p.length := h.length_replyWith v
  have hcell (j : ℕ) (hj : l4Offset p + 4 ≤ j) : cell (replyWith order v p) j = cell p j := by
    rw [h.cell_replyWith, if_neg (by omega), if_neg (by omega),
      cell_readdress_of_fixed (by omega) (by omega)]
  have hcode : cell (replyWith order v p) (l4Offset p + 1) = cell p (l4Offset p + 1) := by
    rw [h.cell_replyWith, if_neg (by omega), if_neg (by omega),
      cell_readdress_of_fixed (by omega) (by omega)]
  have htype : cell (replyWith order v p) (l4Offset p) = 0 := by
    rw [h.cell_replyWith, if_neg (by omega), if_pos rfl]
  have hsum : slice (replyWith order v p) (l4Offset p + 2) 2 = order.bytes16 v := by
    have hb := order.length_bytes16 v
    rw [replyWith, ← hb]
    exact slice_overwrite_self (by rw [h.length_retyped]; omega)
  have htail : slice (replyWith order v p) (l4Offset p + 4) (totLen p - 4 * ihl p - 4) = icmpTail p :=
    slice_congr (by omega) (by omega) fun k _ ↦ hcell _ (by omega)
  rw [l4Message, h.l4Offset_replyWith, h.totLen_replyWith, h.ihl_replyWith,
    show totLen p - 4 * ihl p = 2 + (totLen p - 4 * ihl p - 4) + 1 + 1 by omega,
    slice_succ (by omega), slice_succ (by omega), slice_add, htype, hcode, hsum, htail]

end Message

def RightChecksum (p : Frame) (c : ℕ) : Prop :=
  0xFFFF ∣ total (8 :: cell p (l4Offset p + 1) :: icmpTail p) + c

/-- The one checksum of a request that turns into the stored error number when the
type changes. -/
def stuckChecksum : ByteOrder → ℕ
  | .little => 0xE2FF
  | .big => 0xF7EA

section Verdict

variable {order : ByteOrder} {csumDiff : CsumDiff} {p : Frame}

/-- Two bytes are no multiple of four, so the helper fails and the low half of the
error number is stored. -/
theorem updatedChecksum_of_contract (hc : CsumDiffContract order csumDiff) (code : UInt8)
    (checksum : UInt16) : updatedChecksum csumDiff code checksum = 0xFFEA := by
  rw [updatedChecksum, hc.misaligned _ _ _ (by simp)]
  rfl

theorem total_bytes16_error : total (order.bytes16 0xFFEA) = stuckChecksum order + 0x0800 := by
  cases order <;> rfl

theorem Request.verifies_iff (h : Request p) :
    Verifies (l4Message p) ↔ RightChecksum p (icmpChecksum p) := by
  have htotal : total (l4Message p) =
      total (8 :: cell p (l4Offset p + 1) :: icmpTail p) + icmpChecksum p := by
    rw [h.l4Message_eq, total_cons_cons, total_cons_cons, total_cons_cons, icmpChecksum, netWord,
      Nat.add_assoc (l4Offset p) 2 1]
    omega
  have hpos : 0 < total (8 :: cell p (l4Offset p + 1) :: icmpTail p) := by
    have htype : (8 : UInt8).toNat = 8 := rfl
    rw [total_cons_cons, htype]
    omega
  rw [OnesComplement.verifies_iff, htotal, RightChecksum]
  exact ⟨And.right, fun hd ↦ ⟨by omega, hd⟩⟩

theorem Request.verifies_reply_iff (h : Request p) (hc : CsumDiffContract order csumDiff) :
    Verifies (l4Message (icmpReply order csumDiff p)) ↔ RightChecksum p (stuckChecksum order) := by
  have hsum : replyChecksum order csumDiff p = 0xFFEA := updatedChecksum_of_contract hc _ _
  have htotal : total (l4Message (icmpReply order csumDiff p)) =
      total (8 :: cell p (l4Offset p + 1) :: icmpTail p) + stuckChecksum order := by
    have hzero : (0 : UInt8).toNat = 0 := rfl
    have height : (8 : UInt8).toNat = 8 := rfl
    have hb := order.length_bytes16 0xFFEA
    rw [icmpReply, h.l4Message_replyWith, hsum, total_cons_cons, total_append (by rw [hb]),
      total_bytes16_error, total_cons_cons, hzero, height]
    omega
  have hpos : 0 < stuckChecksum order := by cases order <;> decide
  rw [OnesComplement.verifies_iff, htotal, RightChecksum]
  exact ⟨And.right, fun hd ↦ ⟨by omega, hd⟩⟩

theorem right_checksum_unique (hr : RightChecksum p (icmpChecksum p))
    (hs : RightChecksum p (stuckChecksum order)) : icmpChecksum p = stuckChecksum order := by
  have hlt : icmpChecksum p < 65536 := netWord_lt _ _
  have hk : 0 < stuckChecksum order ∧ stuckChecksum order < 0xFFFF := by cases order <;> decide
  unfold RightChecksum at hr hs
  omega

end Verdict

/-- The reply's checksum is right exactly when the request's was if and only if the
request carries the one checksum that the error number happens to fit, or if
neither is right for its message. -/
theorem icmp_reply_checksum (order : ByteOrder) (csumDiff : CsumDiff)
    (hc : CsumDiffContract order csumDiff) (p q : Frame)
    (hq : xdpIcmpEcho order csumDiff p = .ok (.tx, q)) (hihl : 5 ≤ ihl p)
    (hcover : 4 * ihl p + 8 ≤ totLen p) (hinside : 14 + totLen p ≤ p.length) :
    (Verifies (l4Message q) ↔ Verifies (l4Message p)) ↔
      icmpChecksum p = stuckChecksum order ∨
        ¬ RightChecksum p (icmpChecksum p) ∧ ¬ RightChecksum p (stuckChecksum order) := by
  obtain ⟨hp, rfl⟩ := (xdpIcmpEcho_tx_iff order csumDiff p q).mp hq
  have h : Request p := ⟨hp, hihl, hcover, hinside⟩
  rw [h.verifies_iff, h.verifies_reply_iff hc]
  constructor
  · intro hiff
    by_cases hr : RightChecksum p (icmpChecksum p)
    · exact Or.inl (right_checksum_unique hr (hiff.mpr hr))
    · exact Or.inr ⟨hr, fun hs ↦ hr (hiff.mp hs)⟩
  · rintro (heq | ⟨hr, hs⟩)
    · rw [heq]
    · exact ⟨fun hs' ↦ absurd hs' hs, fun hr' ↦ absurd hr' hr⟩

theorem icmp_reply_checksum_wrong :
    CsumDiffContract .little (plainCsumDiff .little) ∧
    xdpIcmpEcho .little (plainCsumDiff .little) icmpRequest =
      .ok (.tx, icmpReply .little (plainCsumDiff .little) icmpRequest) ∧
    5 ≤ ihl icmpRequest ∧ 4 * ihl icmpRequest + 8 ≤ totLen icmpRequest ∧
    14 + totLen icmpRequest ≤ icmpRequest.length ∧ Verifies (l4Message icmpRequest) ∧
    ¬ Verifies (l4Message (icmpReply .little (plainCsumDiff .little) icmpRequest)) := by
  refine ⟨plainCsumDiff_contract .little, ?_, by decide, by decide, by decide, by decide, by decide⟩
  exact (xdpIcmpEcho_tx_iff .little (plainCsumDiff .little) icmpRequest _).mpr ⟨by decide, rfl⟩

def stuckRequest : Frame := overwrite icmpRequest 36 [0xE2, 0xFF, 0x15, 0, 0, 0]

theorem icmp_reply_checksum_stuck :
    Verifies (l4Message stuckRequest) ∧
      Verifies (l4Message (icmpReply .little (plainCsumDiff .little) stuckRequest)) := by
  have hright : Verifies (l4Message stuckRequest) := by decide
  have hrun : xdpIcmpEcho .little (plainCsumDiff .little) stuckRequest =
      .ok (.tx, icmpReply .little (plainCsumDiff .little) stuckRequest) :=
    (xdpIcmpEcho_tx_iff .little (plainCsumDiff .little) _ _).mpr ⟨by decide, rfl⟩
  exact ⟨hright, ((icmp_reply_checksum .little (plainCsumDiff .little)
    (plainCsumDiff_contract .little) stuckRequest _ hrun (by decide) (by decide) (by decide)).mpr
    (Or.inl (by decide))).mpr hright⟩

end KernelBypass.Xdp.IcmpChecksum
