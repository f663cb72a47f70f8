import KernelBypass.Foundation.OnesComplement
import KernelBypass.Xdp.UdpService

namespace KernelBypass.Xdp.UdpIntegrity

open Foundation Buffer OnesComplement Linux UdpEcho UdpBounce UdpService

@[mk_iff]
structure Checksummed (p : Frame) : Prop extends UdpRequest p where
  noOptions : ihl p = 5
  udpHeader : 8 ≤ netWord p 38
  consistent : totLen p = 20 + netWord p 38
  inside : 14 + totLen p ≤ p.length
  nonzero : netWord p 40 ≠ 0

instance (p : Frame) : Decidable (Checksummed p) := decidable_of_iff' _ (checksummed_iff p)

def pseudoHeader (p : Frame) : List UInt8 := slice p 26 8 ++ [0, protocol p] ++ slice p 38 2

def UdpVerifies (p : Frame) : Prop := Verifies (pseudoHeader p ++ l4Message p)

/-- The receiver's check, in which a zero field means that there is no checksum. -/
def UdpAccepted (p : Frame) : Prop := netWord p 40 = 0 ∨ UdpVerifies p

instance (p : Frame) : Decidable (UdpVerifies p) := inferInstanceAs (Decidable (Verifies _))

instance (p : Frame) : Decidable (UdpAccepted p) := inferInstanceAs (Decidable (_ ∨ _))

structure Swapped (p q : Frame) : Prop where
  length : q.length = p.length
  fixed : ∀ j, 12 ≤ j ∧ j < 24 ∨ 38 ≤ j → cell q j = cell p j
  saddr : slice q 26 4 = slice p 30 4
  daddr : slice q 30 4 = slice p 26 4
  sport : slice q 34 2 = slice p 36 2
  dport : slice q 36 2 = slice p 34 2

variable {p q : Frame}

theorem Swapped.slice_eq (h : Swapped p q) {i n : ℕ} (hn : i + n ≤ p.length) (hi : 38 ≤ i) :
    slice q i n = slice p i n := by
  have hlen := h.length
  exact slice_congr (by omega) hn fun k _ ↦ h.fixed _ (by omega)

theorem Swapped.total_addresses (h : Swapped p q) (hp : 34 ≤ p.length) :
    total (slice q 26 8) = total (slice p 26 8) := by
  have hlen := h.length
  have hsplit (r : Frame) (hr : 34 ≤ r.length) :
      total (slice r 26 8) = total (slice r 26 4) + total (slice r 30 4) :=
    total_slice_split (p := r) (i := 26) (k := 4) (n := 4) (m := 0) rfl rfl hr
  rw [hsplit q (by omega), hsplit p hp, h.saddr, h.daddr, Nat.add_comm]

theorem Swapped.total_l4Message (h : Swapped p q) (hp : Checksummed p) :
    total (l4Message q) = total (l4Message p) := by
  have hlen := h.length
  have hin := hp.inside
  have hcons := hp.consistent
  obtain ⟨m, hm⟩ := Nat.exists_eq_add_of_le hp.udpHeader
  have htot : totLen q = totLen p := netWord_congr (h.fixed 16 (by omega)) (h.fixed 17 (by omega))
  have hihl : ihl q = 5 := by
    rw [← hp.noOptions, ihl, h.fixed 14 (by omega), ihl]
  have hmessage (r : Frame) (hr : ihl r = 5) (htr : totLen r = totLen p)
      (hl : r.length = p.length) : total (l4Message r) =
        total (slice r 34 2) + total (slice r 36 2) + total (slice r 38 (4 + m)) := by
    rw [l4Message, l4Offset, hr, htr, show totLen p - 4 * 5 = 2 + 2 + (4 + m) by omega]
    exact total_slice_split (p := r) (i := 34) (k := 2) (n := 2) (m := 4 + m) rfl rfl (by omega)
  rw [hmessage q hihl htot hlen, hmessage p hp.noOptions rfl rfl, h.sport, h.dport,
    h.slice_eq (by omega) (by omega)]
  omega

theorem Swapped.verifies_iff (h : Swapped p q) (hp : Checksummed p) :
    UdpVerifies q ↔ UdpVerifies p := by
  have hin := hp.inside
  have hcons := hp.consistent
  have hudp := hp.udpHeader
  have hlen := h.length
  have hproto : protocol q = protocol p := h.fixed 23 (by omega)
  have hsum (r : Frame) (hr : r.length = p.length) : total (pseudoHeader r ++ l4Message r) =
      total (slice r 26 8) + total [0, protocol r] + total (slice r 38 2) + total (l4Message r) := by
    have haddr : (slice r 26 8).length = 8 := length_slice (by omega)
    have hl : (slice r 38 2).length = 2 := length_slice (by omega)
    have hmid : [0, protocol r].length = 2 := rfl
    rw [pseudoHeader, total_append, total_append, total_append]
    · rw [haddr]
    · rw [List.length_append, haddr, hmid]
    · rw [List.length_append, List.length_append, haddr, hmid, hl]
  have htotal : total (pseudoHeader q ++ l4Message q) = total (pseudoHeader p ++ l4Message p) := by
    rw [hsum q hlen, hsum p rfl, h.total_addresses (by omega), hproto,
      h.slice_eq (by omega) (by omega), h.total_l4Message hp]
  rw [UdpVerifies, UdpVerifies, OnesComplement.verifies_iff, OnesComplement.verifies_iff, htotal]

theorem swapped_of_echoes (h : Echoes p q) (hp : 42 ≤ p.length) :
    Swapped p (overwrite q 40 (slice p 40 2)) := by
  have hlen := h.length
  have hcheck : (slice p 40 2).length = 2 := length_slice (by omega)
  have hroom : 40 + (slice p 40 2).length ≤ q.length := by omega
  refine ⟨?_, fun j hj ↦ ?_, ?_, ?_, ?_, ?_⟩
  · rw [length_overwrite hroom, hlen]
  · rw [cell_overwrite hroom, hcheck]
    by_cases hin : 40 ≤ j ∧ j < 40 + 2
    · rw [if_pos hin, cell_slice (by omega), Nat.add_sub_cancel' hin.1]
    · rw [if_neg hin, h.others j (by omega)]
  · rw [slice_overwrite_of_disjoint hroom (by omega) (by omega), h.saddr]
  · rw [slice_overwrite_of_disjoint hroom (by omega) (by omega), h.daddr]
  · rw [slice_overwrite_of_disjoint hroom (by omega) (by omega), h.sport]
  · rw [slice_overwrite_of_disjoint hroom (by omega) (by omega), h.dport]

/-- The reply carries no checksum and is accepted whatever became of the request; the
exchanges alone would keep a right checksum right and a wrong one wrong. -/
theorem udp_echo_accepted (order : ByteOrder) (p q : Frame) (h : Checksummed p)
    (hq : xdpUdpEcho order p = .ok (.tx, q)) :
    netWord q 40 = 0 ∧ UdpAccepted q ∧
      (UdpVerifies (overwrite q 40 (slice p 40 2)) ↔ UdpVerifies p) := by
  obtain ⟨hlen, _, rfl⟩ := (xdpUdpEcho_tx_iff order p q).mp hq
  have he := udpReply_echoes hlen
  have hzero : netWord (udpReply p) 40 = 0 := netWord_eq_zero (by rw [he.length]; omega) he.udpCheck
  exact ⟨hzero, Or.inl hzero, (swapped_of_echoes he hlen).verifies_iff h⟩

theorem udp_echo_accepted_request :
    UdpVerifies udpRequest ∧ UdpAccepted (udpReply udpRequest) ∧
      UdpVerifies (overwrite (udpReply udpRequest) 40 (slice udpRequest 40 2)) := by
  have hq := (xdpUdpEcho_tx_iff .little udpRequest _).mpr ⟨by decide, by decide, rfl⟩
  obtain ⟨_, haccepted, hiff⟩ := udp_echo_accepted .little udpRequest _ (by decide) hq
  exact ⟨by decide, haccepted, hiff.mpr (by decide)⟩

def corruptRequest : Frame := overwrite udpRequest 43 [204]

theorem udp_echo_accepts_corrupt : Checksummed corruptRequest ∧ ¬ UdpVerifies corruptRequest ∧
    ∃ q, xdpUdpEcho .little corruptRequest = .ok (.tx, q) ∧ UdpAccepted q :=
  ⟨by decide, by decide, _,
    (xdpUdpEcho_tx_iff .little corruptRequest _).mpr ⟨by decide, by decide, rfl⟩, by decide⟩

end KernelBypass.Xdp.UdpIntegrity
