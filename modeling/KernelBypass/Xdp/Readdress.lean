import KernelBypass.Linux.Ipv4

namespace KernelBypass.Xdp.Readdress

open Foundation Buffer OnesComplement Linux

/-- What both echo programs do to the Ethernet and the fixed IPv4 header: the MAC
addresses and the IPv4 addresses change places and the header checksum is
cleared. -/
def readdress (p : Frame) : Frame :=
  overwrite (exchange (exchange p 0 6 6) 26 30 4) 24 [0, 0]

def addressSource (j : ℕ) : ℕ := partner 0 6 6 (partner 26 30 4 j)

theorem cell_zero_zero (j : ℕ) : cell ([0, 0] : List UInt8) j = 0 := by
  rcases j with _ | _ | j <;> rfl

theorem addressSource_of_fixed {j : ℕ} (h : 12 ≤ j ∧ j < 26 ∨ 34 ≤ j) : addressSource j = j := by
  have hip : partner 26 30 4 j = j := partner_of_outside (by omega) (by omega)
  rw [addressSource, hip, partner_of_outside (by omega) (by omega)]

variable {p : Frame}

section Exchanged

variable (h : 34 ≤ p.length)
include h

theorem length_exchange_mac : (exchange p 0 6 6).length = p.length :=
  length_exchange (by omega) (by omega)

theorem length_exchange_ip : (exchange (exchange p 0 6 6) 26 30 4).length = p.length := by
  have hmac := length_exchange_mac h
  rw [length_exchange (by omega) (by omega), hmac]

theorem clear_check_room :
    24 + ([0, 0] : List UInt8).length ≤ (exchange (exchange p 0 6 6) 26 30 4).length := by
  rw [length_exchange_ip h]
  simp only [List.length_cons, List.length_nil]
  omega

theorem length_readdress : (readdress p).length = p.length := by
  rw [readdress, length_overwrite (clear_check_room h), length_exchange_ip h]

theorem cell_readdress (j : ℕ) :
    cell (readdress p) j = if j = 24 ∨ j = 25 then 0 else cell p (addressSource j) := by
  have hmac := length_exchange_mac h
  rw [readdress, cell_overwrite (clear_check_room h)]
  simp only [List.length_cons, List.length_nil]
  by_cases hj : j = 24 ∨ j = 25
  · rw [if_pos (by omega), if_pos hj, cell_zero_zero]
  · rw [if_neg (by omega), if_neg hj, cell_exchange (by omega) (by omega),
      cell_exchange (by omega) (by omega)]
    rfl

theorem cell_readdress_of_fixed {j : ℕ} (hj : 12 ≤ j ∧ j < 24 ∨ 34 ≤ j) :
    cell (readdress p) j = cell p j := by
  rw [cell_readdress h, if_neg (by omega), addressSource_of_fixed (by omega)]

end Exchanged

theorem total_readdress {n : ℕ} (hn : 20 ≤ n) (h : 14 + n ≤ p.length) :
    total (slice (readdress p) 14 n) + netWord p 24 = total (slice p 14 n) := by
  have hmac := length_exchange_mac (p := p) (by omega)
  have hip := length_exchange_ip (p := p) (by omega)
  obtain ⟨m, rfl⟩ := Nat.exists_eq_add_of_le hn
  have hclear := total_overwrite (p := exchange (exchange p 0 6 6) 26 30 4) (v := [0, 0])
    (i := 14) (k := 10) (m := 8 + m) rfl rfl (by simp only [List.length_cons, List.length_nil]; omega)
  have hswap := total_exchange (p := exchange p 0 6 6) (i := 14) (k := 12) (n := 4) (d := 0)
    (m := m) rfl rfl rfl (by omega)
  have hfix := slice_exchange_of_disjoint (p := p) (a := 0) (b := 6) (n := 6) (j := 14)
    (m := 20 + m) (by omega) (by omega) h (by omega) (by omega)
  have hcheck : total (slice (exchange (exchange p 0 6 6) 26 30 4) 24 2) = netWord p 24 := by
    rw [slice_exchange_of_disjoint (by omega) (by omega) (by omega) (by omega) (by omega),
      slice_exchange_of_disjoint (by omega) (by omega) (by omega) (by omega) (by omega),
      total_slice_two (by omega)]
  have hzero : total ([0, 0] : List UInt8) = 0 := rfl
  simp only [List.length_cons, List.length_nil, Nat.reduceAdd, hcheck, hzero, Nat.add_zero,
    ← Nat.add_assoc] at hclear hswap
  rw [readdress, ← hfix, ← hswap]
  exact hclear

end KernelBypass.Xdp.Readdress
