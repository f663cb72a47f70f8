import KernelBypass.Foundation.Reflection
import KernelBypass.Xdp.UdpEcho

namespace KernelBypass.Xdp.UdpBounce

open Foundation Buffer Reflection Linux Readdress UdpEcho

variable (order : ByteOrder)

def clearChecksums (p : Frame) : Frame := overwrite (overwrite p 24 [0, 0]) 40 [0, 0]

/-- The bytes of an echo: three exchanges, two cleared fields, nothing else. -/
structure Echoes (p q : Frame) : Prop where
  length : q.length = p.length
  dest : slice q 0 6 = slice p 6 6
  source : slice q 6 6 = slice p 0 6
  saddr : slice q 26 4 = slice p 30 4
  daddr : slice q 30 4 = slice p 26 4
  sport : slice q 34 2 = slice p 36 2
  dport : slice q 36 2 = slice p 34 2
  check : slice q 24 2 = [0, 0]
  udpCheck : slice q 40 2 = [0, 0]
  others : ∀ j, 12 ≤ j ∧ j < 24 ∨ 38 ≤ j ∧ j < 40 ∨ 42 ≤ j → cell q j = cell p j

variable {p q : Frame}

theorem Echoes.slice_of_fixed (he : Echoes p q) {i n : ℕ} (hn : i + n ≤ p.length)
    (hi : 12 ≤ i ∧ i + n ≤ 24 ∨ 38 ≤ i ∧ i + n ≤ 40 ∨ 42 ≤ i) : slice q i n = slice p i n := by
  have hlen := he.length
  exact slice_congr (by omega) hn fun k hk ↦ he.others _ (by omega)

theorem slice_udpReply (h : 42 ≤ p.length) {i j n : ℕ} (hi : i + n ≤ 42) (hj : j + n ≤ 42)
    (hs : ∀ k < n, ¬ Cleared (i + k) ∧ echoSource (i + k) = j + k) :
    slice (udpReply p) i n = slice p j n := by
  have hlen := length_udpReply h
  refine slice_congr (by omega) (by omega) fun k hk ↦ ?_
  obtain ⟨hkept, hsource⟩ := hs k hk
  rw [cell_udpReply h, if_neg hkept, hsource]

theorem slice_udpReply_cleared (h : 42 ≤ p.length) {i : ℕ} (hi : i = 24 ∨ i = 40) :
    slice (udpReply p) i 2 = [0, 0] := by
  have hlen := length_udpReply h
  rw [slice_succ (by omega), slice_succ (by omega), slice_zero, cell_udpReply h, cell_udpReply h,
    if_pos (by omega), if_pos (by omega)]

theorem udpReply_echoes (h : 42 ≤ p.length) : Echoes p (udpReply p) where
  length := length_udpReply h
  dest := slice_udpReply h (by omega) (by omega) (by grind [echoSource, addressSource, partner])
  source := slice_udpReply h (by omega) (by omega) (by grind [echoSource, addressSource, partner])
  saddr := slice_udpReply h (by omega) (by omega) (by grind [echoSource, addressSource, partner])
  daddr := slice_udpReply h (by omega) (by omega) (by grind [echoSource, addressSource, partner])
  sport := slice_udpReply h (by omega) (by omega) (by grind [echoSource, addressSource, partner])
  dport := slice_udpReply h (by omega) (by omega) (by grind [echoSource, addressSource, partner])
  check := slice_udpReply_cleared h (Or.inl rfl)
  udpCheck := slice_udpReply_cleared h (Or.inr rfl)
  others := fun j hj ↦ cell_udpReply_of_fixed h hj

theorem length_clearChecksums (h : 42 ≤ p.length) : (clearChecksums p).length = p.length := by
  have hip : (overwrite p 24 [0, 0]).length = p.length :=
    length_overwrite (by simp only [List.length_cons, List.length_nil]; omega)
  have hroom : 40 + ([0, 0] : List UInt8).length ≤ (overwrite p 24 [0, 0]).length := by
    rw [hip]
    exact h
  rw [clearChecksums, length_overwrite hroom, hip]

theorem cell_clearChecksums (h : 42 ≤ p.length) (j : ℕ) :
    cell (clearChecksums p) j = if Cleared j then 0 else cell p j := by
  have hroom : 24 + ([0, 0] : List UInt8).length ≤ p.length := by
    simp only [List.length_cons, List.length_nil]
    omega
  have hip := length_overwrite hroom
  rw [clearChecksums, cell_overwrite (by simp only [List.length_cons, List.length_nil]; omega),
    cell_overwrite hroom, cell_zero_zero, cell_zero_zero]
  simp only [List.length_cons, List.length_nil]
  split_ifs <;> first | rfl | omega

theorem udpReply_answered (h : 42 ≤ p.length ∧ cell p 23 = 17) :
    42 ≤ (udpReply p).length ∧ cell (udpReply p) 23 = 17 := by
  rw [length_udpReply h.1, cell_udpReply_of_fixed h.1 (by omega)]
  exact h

theorem udpReply_udpReply (h : 42 ≤ p.length) : udpReply (udpReply p) = clearChecksums p := by
  have hlen := length_udpReply h
  have hlen' : 42 ≤ (udpReply p).length := by omega
  refine ext_cell (by rw [length_udpReply hlen', hlen, length_clearChecksums h]) fun j _ ↦ ?_
  rw [cell_udpReply hlen', cell_clearChecksums h]
  split_ifs with hj
  · rfl
  · rw [cell_udpReply h, if_neg (by rwa [cleared_echoSource]), echoSource_echoSource]

theorem udpReply_clearChecksums (h : 42 ≤ p.length) : udpReply (clearChecksums p) = udpReply p := by
  have hlen := length_clearChecksums h
  have hlen' : 42 ≤ (clearChecksums p).length := by omega
  refine ext_cell (by rw [length_udpReply hlen', hlen, length_udpReply h]) fun j _ ↦ ?_
  rw [cell_udpReply hlen', cell_udpReply h]
  split_ifs with hj
  · rfl
  · rw [cell_clearChecksums h, if_neg (by rwa [cleared_echoSource])]

theorem transmit_udpEcho (h : 42 ≤ p.length ∧ cell p 23 = 17) :
    transmit (xdpUdpEcho order) p = some (udpReply p) :=
  transmit_eq_some_iff.mpr ((xdpUdpEcho_tx_iff order p _).mpr ⟨h.1, h.2, rfl⟩)

/-- Between two hosts that both run the program, a frame alternates for ever
between its echo and itself without checksums. -/
theorem udp_echo_bounces (p : Frame) :
    (∀ q, xdpUdpEcho order p = .ok (.tx, q) → Echoes p q ∧
      (∃ r, xdpUdpEcho order q = .ok (.tx, r)) ∧
      ∀ n, 1 ≤ n → bounce (transmit (xdpUdpEcho order)) n p =
        some (if n % 2 = 1 then q else clearChecksums p)) ∧
    ∃ v q, xdpUdpEcho order p = .ok (v, q) ∧ (v ≠ .tx → q = p) := by
  constructor
  · intro q hq
    obtain ⟨hlen, hproto, rfl⟩ := (xdpUdpEcho_tx_iff order p q).mp hq
    obtain ⟨hlen', hproto'⟩ := udpReply_answered ⟨hlen, hproto⟩
    refine ⟨udpReply_echoes hlen, ⟨_, (xdpUdpEcho_tx_iff order _ _).mpr ⟨hlen', hproto', rfl⟩⟩, ?_⟩
    intro n hn
    obtain ⟨m, rfl⟩ := Nat.exists_eq_add_of_le' hn
    exact bounce_parity udpReply clearChecksums (fun p ↦ 42 ≤ p.length ∧ cell p 23 = 17)
      (fun a ha ↦ transmit_udpEcho order ha) (fun a ha ↦ udpReply_answered ha)
      (fun a ha ↦ udpReply_udpReply ha.1) (fun a ha ↦ udpReply_clearChecksums ha.1) m ⟨hlen, hproto⟩
  · rw [xdpUdpEcho_run]
    split_ifs
    · exact ⟨_, _, rfl, fun _ ↦ rfl⟩
    · exact ⟨_, _, rfl, fun _ ↦ rfl⟩
    · exact ⟨_, _, rfl, fun h ↦ absurd rfl h⟩

theorem udp_echo_bounces_request : Echoes udpRequest (udpReply udpRequest) ∧
    bounce (transmit (xdpUdpEcho .little)) 3 udpRequest = some (udpReply udpRequest) ∧
    bounce (transmit (xdpUdpEcho .little)) 4 udpRequest = some (clearChecksums udpRequest) := by
  have hq := (xdpUdpEcho_tx_iff .little udpRequest _).mpr ⟨by decide, by decide, rfl⟩
  obtain ⟨he, _, hb⟩ := (udp_echo_bounces .little udpRequest).1 _ hq
  exact ⟨he, hb 3 (by decide), hb 4 (by decide)⟩

end KernelBypass.Xdp.UdpBounce
