import KernelBypass.Xdp.IcmpChecksum
import KernelBypass.Xdp.UdpEcho

namespace KernelBypass.Xdp.HeaderChecksum

open Foundation Buffer OnesComplement Linux Readdress IcmpEcho UdpEcho

def ipCheck (p : Frame) : ℕ := netWord p 24

section Totals

variable {p : Frame}

theorem total_ipHeader_pos (hihl : 5 ≤ ihl p) (hin : 14 + 4 * ihl p ≤ p.length) :
    0 < total (ipHeader p) := by
  have hbyte : ihl p ≤ (cell p 14).toNat := Nat.mod_le _ _
  rw [ipHeader, show 4 * ihl p = 4 * ihl p - 2 + 1 + 1 by omega, slice_succ (by omega),
    slice_succ (by omega), total_cons_cons]
  omega

theorem verifies_without {q : Frame} {c : ℕ} (hv : Verifies (ipHeader p))
    (hq : total (ipHeader q) + c = total (ipHeader p)) (hpos : 0 < total (ipHeader q)) :
    Verifies (ipHeader q) ↔ 0xFFFF ∣ c := by
  rw [verifies_iff] at hv ⊢
  obtain ⟨_, hd⟩ := hv
  rw [← hq] at hd
  constructor
  · rintro ⟨_, hd'⟩
    exact (Nat.dvd_add_right hd').mp hd
  · intro hc
    exact ⟨by omega, (Nat.dvd_add_left hc).mp hd⟩

theorem dvd_ipCheck_iff : 0xFFFF ∣ ipCheck p ↔ ipCheck p = 0 ∨ ipCheck p = 0xFFFF := by
  have hlt : ipCheck p < 65536 := netWord_lt _ _
  omega

theorem total_ipHeader_icmp {order : ByteOrder} (h : Answered p) (hihl : 5 ≤ ihl p) (v : UInt16) :
    total (ipHeader (replyWith order v p)) + ipCheck p = total (ipHeader p) := by
  have hoff : l4Offset p = 14 + 4 * ihl p := rfl
  have hfit := h.fitsIcmp
  have hlen := h.length_readdress
  have hslice : slice (replyWith order v p) 14 (4 * ihl p) = slice (readdress p) 14 (4 * ihl p) := by
    refine slice_congr (by rw [h.length_replyWith]; omega) (by omega) fun k hk ↦ ?_
    rw [h.cell_replyWith, if_neg (by omega), if_neg (by omega)]
  rw [ipHeader, h.ihl_replyWith, hslice]
  exact total_readdress (by omega) (by omega)

/-- The UDP program also clears bytes 40 and 41, which are options from seven words
of header on. The ports it exchanges may be options too, but leave the sum alone. -/
theorem total_ipHeader_udp (h : 42 ≤ p.length) (hihl : 5 ≤ ihl p)
    (hin : 14 + 4 * ihl p ≤ p.length) :
    total (ipHeader (udpReply p)) + (ipCheck p + if ihl p < 7 then 0 else netWord p 40) =
      total (ipHeader p) := by
  have hlen := length_readdress (p := p) (by omega)
  have hports : (exchange (readdress p) 34 36 2).length = p.length := by
    rw [length_exchange (by omega) (by omega), hlen]
  have hroom := clear_udp_check_room h
  have haddr := total_readdress (p := p) (n := 4 * ihl p) (by omega) hin
  have hread : total (slice (readdress p) 14 (4 * ihl p)) + ipCheck p = total (ipHeader p) := haddr
  rw [ipHeader, ihl_udpReply h, udpReply]
  rcases Nat.lt_trichotomy (ihl p) 6 with hfive | hsix | hseven
  · have hn : 4 * ihl p = 20 := by omega
    rw [hn] at hread ⊢
    rw [if_pos (by omega), slice_overwrite_of_disjoint hroom (by omega) (by omega),
      slice_exchange_of_disjoint (by omega) (by omega) (by omega) (by omega) (by omega)]
    exact hread
  · have hn : 4 * ihl p = 24 := by omega
    have hswap := total_exchange (p := readdress p) (i := 14) (k := 20) (n := 2) (d := 0) (m := 0)
      rfl rfl rfl (by omega)
    simp only [Nat.reduceAdd, Nat.add_zero] at hswap
    rw [hn] at hread ⊢
    rw [if_pos (by omega), slice_overwrite_of_disjoint hroom (by omega) (by omega), hswap]
    exact hread
  · obtain ⟨m, hm⟩ := Nat.exists_eq_add_of_le (show 28 ≤ 4 * ihl p by omega)
    have hswap := total_exchange (p := readdress p) (i := 14) (k := 20) (n := 2) (d := 0) (m := 4 + m)
      rfl rfl rfl (by omega)
    have hclear := total_overwrite (p := exchange (readdress p) 34 36 2) (v := [0, 0]) (i := 14)
      (k := 26) (m := m) rfl rfl (by simp only [List.length_cons, List.length_nil]; omega)
    have hword : total (slice (exchange (readdress p) 34 36 2) 40 2) = netWord p 40 := by
      rw [slice_exchange_of_disjoint (by omega) (by omega) (by omega) (by omega) (by omega),
        total_slice_two (by omega)]
      exact netWord_congr (cell_readdress_of_fixed (by omega) (by omega))
        (cell_readdress_of_fixed (by omega) (by omega))
    have hzero : total ([0, 0] : List UInt8) = 0 := rfl
    simp only [List.length_cons, List.length_nil, Nat.reduceAdd, Nat.add_zero, hword, hzero,
      ← Nat.add_assoc] at hclear hswap
    rw [hm] at hread ⊢
    rw [if_neg (by omega)]
    omega

end Totals

/-- A reply's header verifies only where the cleared words were zeros of
one's-complement arithmetic. -/
theorem reply_header_checksum (order : ByteOrder) (csumDiff : CsumDiff) (p : Frame)
    (hihl : 5 ≤ ihl p) (hin : 14 + 4 * ihl p ≤ p.length) (hv : Verifies (ipHeader p)) :
    (∀ q, xdpIcmpEcho order csumDiff p = .ok (.tx, q) →
      (Verifies (ipHeader q) ↔ ipCheck p = 0 ∨ ipCheck p = 0xFFFF)) ∧
    ∀ q, xdpUdpEcho order p = .ok (.tx, q) →
      (Verifies (ipHeader q) ↔
        if ihl p < 7 then ipCheck p = 0 ∨ ipCheck p = 0xFFFF
        else 0xFFFF ∣ ipCheck p + netWord p 40) := by
  constructor
  · intro q hq
    obtain ⟨h, rfl⟩ := (xdpIcmpEcho_tx_iff order csumDiff p q).mp hq
    have hsum : total (ipHeader (icmpReply order csumDiff p)) + ipCheck p = total (ipHeader p) :=
      total_ipHeader_icmp h hihl _
    have hsame : ihl (icmpReply order csumDiff p) = ihl p := h.ihl_replyWith _
    have hlen : (icmpReply order csumDiff p).length = p.length := h.length_replyWith _
    rw [verifies_without hv hsum (total_ipHeader_pos (by omega) (by omega)), dvd_ipCheck_iff]
  · intro q hq
    obtain ⟨hlen, _, rfl⟩ := (xdpUdpEcho_tx_iff order p q).mp hq
    have hsum := total_ipHeader_udp hlen hihl hin
    have hsame := ihl_udpReply hlen
    have hlen' := length_udpReply hlen
    rw [verifies_without hv hsum (total_ipHeader_pos (by omega) (by omega))]
    split_ifs with hshort
    · rw [Nat.add_zero, dvd_ipCheck_iff]
    · rfl

theorem reply_header_checksum_wrong :
    (etherType icmpRequest = 0x0800 ∧ ihl icmpRequest = 5 ∧ 34 ≤ icmpRequest.length ∧
      Verifies (ipHeader icmpRequest) ∧
      xdpIcmpEcho .little (plainCsumDiff .little) icmpRequest =
        .ok (.tx, icmpReply .little (plainCsumDiff .little) icmpRequest) ∧
      ¬ Verifies (ipHeader (icmpReply .little (plainCsumDiff .little) icmpRequest))) ∧
    etherType udpRequest = 0x0800 ∧ ihl udpRequest = 5 ∧ 34 ≤ udpRequest.length ∧
      Verifies (ipHeader udpRequest) ∧
      xdpUdpEcho .little udpRequest = .ok (.tx, udpReply udpRequest) ∧
      ¬ Verifies (ipHeader (udpReply udpRequest)) := by
  refine ⟨⟨by decide, by decide, by decide, by decide, ?_, by decide⟩, by decide, by decide,
    by decide, by decide, ?_, by decide⟩
  · exact (xdpIcmpEcho_tx_iff .little (plainCsumDiff .little) icmpRequest _).mpr ⟨by decide, rfl⟩
  · exact (xdpUdpEcho_tx_iff .little udpRequest _).mpr ⟨by decide, by decide, rfl⟩

theorem reply_header_checksum_zero :
    Verifies (ipHeader (udpReply (overwrite udpRequest 16 [0, 30, 102, 205, 0, 0, 64, 17, 0, 0]))) := by
  refine ((reply_header_checksum .little (plainCsumDiff .little)
    (overwrite udpRequest 16 [0, 30, 102, 205, 0, 0, 64, 17, 0, 0]) (by decide) (by decide)
    (by decide)).2 _ ?_).mpr (Or.inl (by decide))
  exact (xdpUdpEcho_tx_iff .little _ _).mpr ⟨by decide, by decide, rfl⟩

end KernelBypass.Xdp.HeaderChecksum
