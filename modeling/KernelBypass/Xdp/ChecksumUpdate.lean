import KernelBypass.Xdp.IcmpChecksum

namespace KernelBypass.Xdp.ChecksumUpdate

open Foundation Buffer OnesComplement Linux Readdress IcmpEcho IcmpChecksum

variable (order : ByteOrder) (csumDiff : CsumDiff)

def icmpMessage (type code : UInt8) (checksum : UInt16) (data : List UInt8) : List UInt8 :=
  type :: code :: (order.bytes16 checksum ++ data)

/-- What the helper returns in step 7, before the cast to 16 bits. -/
def csumAnswer (code : UInt8) (checksum : UInt16) : UInt32 :=
  (csumDiff [8, code] [0, code] checksum.toUInt32).toUInt64.toUInt32

/-- The upper half that makes up for the sign: it is taken off by the cast, and it is
twice the change of the type with its sign reversed. -/
def luckyHalf : ByteOrder → ℕ
  | .little => 0xFFEF
  | .big => 0xEFFF

def typeWeight : ByteOrder → ℕ
  | .little => 8
  | .big => 0x0800

def netWeight : ByteOrder → ℕ
  | .little => 256
  | .big => 1

theorem toNat_echo_word (code : UInt8) :
    (order.word16 8 code).toNat = (order.word16 0 code).toNat + typeWeight order := by
  have height : (8 : UInt8).toNat = 8 := rfl
  have hzero : (0 : UInt8).toNat = 0 := rfl
  rw [ByteOrder.toNat_word16, ByteOrder.toNat_word16]
  cases order <;> simp only [typeWeight] <;> omega

/-- A word read in the other byte order is the same number, times 256, modulo the
all-ones word. -/
theorem total_bytes16_modEq (v : UInt16) :
    total (order.bytes16 v) ≤ 0xFFFF ∧
      total (order.bytes16 v) ≡ netWeight order * v.toNat [MOD 0xFFFF] := by
  obtain ⟨a, b, rfl⟩ := order.exists_word16 v
  have ha := a.toNat_lt
  have hb := b.toNat_lt
  rw [ByteOrder.bytes16_word16, ByteOrder.toNat_word16, total_cons_cons, total_nil, Nat.ModEq]
  cases order <;> simp only [netWeight] <;> omega

section Answer

variable {order csumDiff}

theorem csumAnswer_modEq (hc : CsumDiff16Contract order csumDiff) (code : UInt8)
    (checksum : UInt16) :
    (csumAnswer csumDiff code checksum).toNat + typeWeight order ≡ checksum.toNat [MOD 0xFFFF] := by
  obtain ⟨v, hv, hmod⟩ := hc.pair [8, code] [0, code] checksum.toUInt32 rfl rfl
  have hanswer : csumAnswer csumDiff code checksum = v := by
    rw [csumAnswer, hv]
    simp
  have hold : (words16 order [8, code]).sum = (order.word16 0 code).toNat + typeWeight order := by
    rw [← toNat_echo_word]
    simp [words16]
  have hnew : (words16 order [0, code]).sum = (order.word16 0 code).toNat := by simp [words16]
  rw [hold, hnew, UInt16.toNat_toUInt32] at hmod
  rw [hanswer]
  refine Nat.ModEq.add_right_cancel' (order.word16 0 code).toNat ?_
  rwa [Nat.add_assoc, Nat.add_comm (typeWeight order)]

/-- The cast drops the upper half instead of adding it. -/
theorem updatedChecksum_modEq (hc : CsumDiff16Contract order csumDiff) (code : UInt8)
    (checksum : UInt16) :
    (updatedChecksum csumDiff code checksum).toNat +
        (csumAnswer csumDiff code checksum).toNat / 0x10000 + typeWeight order ≡
      checksum.toNat [MOD 0xFFFF] := by
  have hanswer := csumAnswer_modEq hc code checksum
  have hlow : (updatedChecksum csumDiff code checksum).toNat =
      (csumAnswer csumDiff code checksum).toNat % 0x10000 := UInt32.toNat_toUInt16 _
  rw [hlow]
  unfold Nat.ModEq at hanswer ⊢
  omega

theorem sameValue_update_iff (hc : CsumDiff16Contract order csumDiff) (code : UInt8)
    (checksum : UInt16) :
    SameValue 0xFFFF (updatedChecksum csumDiff code checksum).toNat
        (update 0xFFFF checksum.toNat (order.word16 8 code).toNat (order.word16 0 code).toNat) ↔
      (csumAnswer csumDiff code checksum).toNat / 0x10000 = luckyHalf order := by
  have hstored := (updatedChecksum csumDiff code checksum).toNat_lt
  have hanswer := (csumAnswer csumDiff code checksum).toNat_lt
  have hsum := checksum.toNat_lt
  have hold := (order.word16 8 code).toNat_lt
  have hnew := (order.word16 0 code).toNat_lt
  have hmod := updatedChecksum_modEq hc code checksum
  have hupdate : update 0xFFFF checksum.toNat (order.word16 8 code).toNat
      (order.word16 0 code).toNat + (order.word16 0 code).toNat ≡
      checksum.toNat + (order.word16 8 code).toNat [MOD 0xFFFF] :=
    update_modEq (by omega) (by omega) (by omega)
  rw [sameValue_iff (by omega) (update_le _ _ _)]
  rw [toNat_echo_word] at hupdate ⊢
  unfold Nat.ModEq at *
  cases order <;> simp only [typeWeight, luckyHalf] at * <;> omega

theorem total_icmpMessage (type code : UInt8) (checksum : UInt16) (data : List UInt8) :
    total (icmpMessage order type code checksum data) =
      256 * type.toNat + code.toNat + total (order.bytes16 checksum) + total data := by
  rw [icmpMessage, total_cons_cons, total_append (by rw [ByteOrder.length_bytes16])]
  omega

theorem sameValue_checksum_iff (hc : CsumDiff16Contract order csumDiff) (code : UInt8)
    (checksum : UInt16) (data : List UInt8)
    (hv : Verifies (icmpMessage order 8 code checksum data)) :
    SameValue 0xFFFF (total (order.bytes16 (updatedChecksum csumDiff code checksum)))
        (OnesComplement.checksum (icmpMessage order 0 code 0 data)) ↔
      (csumAnswer csumDiff code checksum).toNat / 0x10000 = luckyHalf order := by
  have hanswer := (csumAnswer csumDiff code checksum).toNat_lt
  have hmod := updatedChecksum_modEq hc code checksum
  obtain ⟨hle, hstored⟩ := total_bytes16_modEq order (updatedChecksum csumDiff code checksum)
  obtain ⟨_, hsum⟩ := total_bytes16_modEq order checksum
  have hverified := ((verifies_iff _).mp hv).2
  have hright := dvd_checksum_add_total (icmpMessage order 0 code 0 data)
  have hzero : total (order.bytes16 0) = 0 := by
    rw [ByteOrder.bytes16_zero]
    rfl
  have htypes : (8 : UInt8).toNat = 8 ∧ (0 : UInt8).toNat = 0 := ⟨rfl, rfl⟩
  rw [total_icmpMessage] at hverified hright
  rw [sameValue_iff hle (checksum_le _)]
  unfold Nat.ModEq at *
  cases order <;> simp only [typeWeight, netWeight, luckyHalf] at * <;> omega

/-- Behind a whole IPv4 header step 7 reads the code and the checksum received. -/
theorem replyChecksum_eq {p : Frame} (h : Request p) :
    replyChecksum order csumDiff p = updatedChecksum csumDiff (cell p (l4Offset p + 1))
      (order.word16 (cell p (l4Offset p + 2)) (cell p (l4Offset p + 3))) := by
  have hlen := h.fits
  have hfit := h.fitsIcmp
  have hihl := h.header
  have hoff : l4Offset p = 14 + 4 * ihl p := rfl
  have hkept (j : ℕ) (hj : l4Offset p < j) :
      cell (overwrite (readdress p) (l4Offset p) [0]) j = cell p j := by
    rw [h.cell_retyped, if_neg (by omega), cell_readdress_of_fixed (by omega) (by omega)]
  rw [replyChecksum, hkept _ (by omega), hkept _ (by omega),
    cell_readdress_of_fixed (by omega) (by omega)]

theorem l4Message_icmpReply {p : Frame} (h : Request p) {code : UInt8} {checksum : UInt16}
    {data : List UInt8} (hp : l4Message p = icmpMessage order 8 code checksum data) :
    l4Message (icmpReply order csumDiff p) =
      icmpMessage order 0 code (updatedChecksum csumDiff code checksum) data := by
  obtain ⟨a, b, rfl⟩ := order.exists_word16 checksum
  rw [h.l4Message_eq, icmpMessage, ByteOrder.bytes16_word16] at hp
  obtain ⟨rfl, rfl, rfl, rfl⟩ := by simpa using hp
  rw [icmpReply, h.l4Message_replyWith, replyChecksum_eq h, icmpMessage]

end Answer

/-- The stored value is the updated checksum, and the checksum of the reply computed
anew, exactly when the half that the cast drops happens to undo the change of sign; what
a reply carries is the stored value. -/
theorem icmp_checksum_update (order : ByteOrder) (csumDiff : CsumDiff)
    (hc : CsumDiff16Contract order csumDiff) (code : UInt8) (checksum : UInt16)
    (data : List UInt8) (hv : Verifies (icmpMessage order 8 code checksum data)) :
    (SameValue 0xFFFF (updatedChecksum csumDiff code checksum).toNat
        (update 0xFFFF checksum.toNat (order.word16 8 code).toNat (order.word16 0 code).toNat) ↔
      (csumAnswer csumDiff code checksum).toNat / 0x10000 = luckyHalf order) ∧
    (SameValue 0xFFFF (total (order.bytes16 (updatedChecksum csumDiff code checksum)))
        (OnesComplement.checksum (icmpMessage order 0 code 0 data)) ↔
      (csumAnswer csumDiff code checksum).toNat / 0x10000 = luckyHalf order) ∧
    ∀ p, Request p → l4Message p = icmpMessage order 8 code checksum data →
      ∃ q, xdpIcmpEcho order csumDiff p = .ok (.tx, q) ∧
        l4Message q = icmpMessage order 0 code (updatedChecksum csumDiff code checksum) data := by
  refine ⟨sameValue_update_iff hc code checksum, sameValue_checksum_iff hc code checksum data hv, ?_⟩
  intro p h hp
  exact ⟨_, (xdpIcmpEcho_tx_iff order csumDiff p _).mpr ⟨h.toAnswered, rfl⟩,
    l4Message_icmpReply h hp⟩

theorem icmp_checksum_update_lucky :
    SameValue 0xFFFF (updatedChecksum (halfCsumDiff .little 0xFFEF) 0 0xFDF7).toNat
      (update 0xFFFF 0xFDF7 8 0) :=
  (icmp_checksum_update .little (halfCsumDiff .little 0xFFEF) (halfCsumDiff_contract _ _) 0 0xFDF7
    [0, 1, 0, 1] (by decide)).1.mpr (by decide)

/-- The answer with nothing above 16 bits moves the checksum the wrong way. -/
theorem icmp_checksum_update_wrong :
    CsumDiff16Contract .little (halfCsumDiff .little 0) ∧
    l4Message icmpRequest = icmpMessage .little 8 0 0xFDF7 [0, 1, 0, 1] ∧
    Verifies (l4Message icmpRequest) ∧
    xdpIcmpEcho .little (halfCsumDiff .little 0) icmpRequest =
      .ok (.tx, icmpReply .little (halfCsumDiff .little 0) icmpRequest) ∧
    updatedChecksum (halfCsumDiff .little 0) 0 0xFDF7 = 0xFDEF ∧
    update 0xFFFF 0xFDF7 8 0 = 0xFDFF ∧ ¬ SameValue 0xFFFF 0xFDEF 0xFDFF ∧
    ¬ Verifies (l4Message (icmpReply .little (halfCsumDiff .little 0) icmpRequest)) := by
  refine ⟨halfCsumDiff_contract _ _, by decide, by decide, ?_, by decide, by decide, by decide,
    by decide⟩
  exact (xdpIcmpEcho_tx_iff .little (halfCsumDiff .little 0) icmpRequest _).mpr ⟨by decide, rfl⟩

end KernelBypass.Xdp.ChecksumUpdate
