import KernelBypass.Xdp.Readdress

namespace KernelBypass.Xdp.UdpEcho

open Foundation Buffer Access Linux Readdress

variable (order : ByteOrder)

/-- Addresses and ports keep their network order and are only moved, so they are
loaded and stored as bytes. -/
def xdpUdpEcho : XdpProgram XdpAction := do
  let dataEnd ← bufferEnd
  let data := 0
  if data + Ethhdr.size + Iphdr.size + Udphdr.size > dataEnd then
    return .aborted
  let eth := data
  let ip := data + Ethhdr.size
  let udp := ip + Iphdr.size
  -- only echo UDP
  let protocol ← load8 (ip + Iphdr.protocol)
  if protocol ≠ ipprotoUdp then
    return .pass
  let tmp ← load (eth + Ethhdr.hDest) ethAlen
  memcpy (eth + Ethhdr.hDest) (eth + Ethhdr.hSource) ethAlen
  store (eth + Ethhdr.hSource) tmp
  -- swap IPs & clear checksum
  let sip ← load (ip + Iphdr.saddr) 4
  memcpy (ip + Iphdr.saddr) (ip + Iphdr.daddr) 4
  store (ip + Iphdr.daddr) sip
  store16 order (ip + Iphdr.check) 0
  -- swap UDP ports & clear checksum
  let sp ← load (udp + Udphdr.source) 2
  memcpy (udp + Udphdr.source) (udp + Udphdr.dest) 2
  store (udp + Udphdr.dest) sp
  store16 order (udp + Udphdr.check) 0
  return .tx

def udpReply (p : Frame) : Frame := overwrite (exchange (readdress p) 34 36 2) 40 [0, 0]

def echoSource (j : ℕ) : ℕ := addressSource (partner 34 36 2 j)

abbrev Cleared (j : ℕ) : Prop := j = 24 ∨ j = 25 ∨ j = 40 ∨ j = 41

theorem echoSource_echoSource (j : ℕ) : echoSource (echoSource j) = j := by
  grind [echoSource, addressSource, partner]

theorem cleared_echoSource (j : ℕ) : Cleared (echoSource j) ↔ Cleared j := by
  grind [echoSource, addressSource, partner]

theorem echoSource_of_fixed {j : ℕ} (h : 12 ≤ j ∧ j < 26 ∨ 38 ≤ j) : echoSource j = j := by
  have hport : partner 34 36 2 j = j := partner_of_outside (by omega) (by omega)
  rw [echoSource, hport, addressSource_of_fixed (by omega)]

variable {p : Frame}

theorem clear_udp_check_room (h : 42 ≤ p.length) :
    40 + ([0, 0] : List UInt8).length ≤ (exchange (readdress p) 34 36 2).length := by
  have hlen := length_readdress (p := p) (by omega)
  rw [length_exchange (by omega) (by omega), hlen]
  exact h

theorem length_udpReply (h : 42 ≤ p.length) : (udpReply p).length = p.length := by
  have hlen := length_readdress (p := p) (by omega)
  rw [udpReply, length_overwrite (clear_udp_check_room h), length_exchange (by omega) (by omega), hlen]

theorem cell_udpReply (h : 42 ≤ p.length) (j : ℕ) :
    cell (udpReply p) j = if Cleared j then 0 else cell p (echoSource j) := by
  have hlen := length_readdress (p := p) (by omega)
  rw [udpReply, cell_overwrite (clear_udp_check_room h)]
  simp only [List.length_cons, List.length_nil, Cleared]
  by_cases hudp : j = 40 ∨ j = 41
  · rw [if_pos (by omega), if_pos (by omega), cell_zero_zero]
  · rw [if_neg (by omega), cell_exchange (by omega) (by omega), cell_readdress (by omega)]
    by_cases hip : j = 24 ∨ j = 25
    · rw [if_pos (by rw [partner_of_outside (by omega) (by omega)]; exact hip), if_pos (by omega)]
    · rw [if_neg (by unfold partner; split_ifs <;> omega), if_neg (by omega)]
      rfl

theorem cell_udpReply_of_fixed (h : 42 ≤ p.length) {j : ℕ}
    (hj : 12 ≤ j ∧ j < 24 ∨ 38 ≤ j ∧ j < 40 ∨ 42 ≤ j) : cell (udpReply p) j = cell p j := by
  rw [cell_udpReply h, if_neg (by omega), echoSource_of_fixed (by omega)]

theorem ihl_udpReply (h : 42 ≤ p.length) : ihl (udpReply p) = ihl p := by
  rw [ihl, cell_udpReply_of_fixed h (by omega)]
  rfl

theorem xdpUdpEcho_run (p : Frame) : xdpUdpEcho order p = .ok
    (if p.length < 42 then (.aborted, p)
      else if cell p 23 ≠ 17 then (.pass, p) else (.tx, udpReply p)) := by
  have hzero := order.bytes16_zero
  simp only [xdpUdpEcho, Ethhdr.size, Iphdr.size, Udphdr.size, Iphdr.protocol, Ethhdr.hDest,
    Ethhdr.hSource, ethAlen, Iphdr.saddr, Iphdr.daddr, Iphdr.check, Udphdr.source, Udphdr.dest,
    Udphdr.check, ipprotoUdp, Nat.reduceAdd, gt_iff_lt]
  rw [bind_run (bufferEnd_run p)]
  by_cases hlen : p.length < 42
  · rw [if_pos hlen, if_pos hlen, pure_run]
  · rw [if_neg hlen, if_neg hlen, bind_run (load8_run (by omega))]
    by_cases hproto : cell p 23 ≠ 17
    · rw [if_pos hproto, if_pos hproto, pure_run]
    · have hmac := length_exchange_mac (p := p) (by omega)
      have hip := length_exchange_ip (p := p) (by omega)
      have haddr := length_readdress (p := p) (by omega)
      have hudp : (exchange (readdress p) 34 36 2).length = p.length := by
        rw [length_exchange (by omega) (by omega), haddr]
      have hread : overwrite (exchange (exchange p 0 6 6) 26 30 4) 24 [0, 0] = readdress p := rfl
      rw [if_neg hproto, if_neg hproto, exchange_run (by omega) (by omega),
        exchange_run (by omega) (by omega), bind_run (store16_run order (by omega) 0), hzero, hread,
        exchange_run (by omega) (by omega), bind_run (store16_run order (by omega) 0), hzero, pure_run,
        udpReply]

theorem xdpUdpEcho_tx_iff (p q : Frame) : xdpUdpEcho order p = .ok (.tx, q) ↔
    42 ≤ p.length ∧ cell p 23 = 17 ∧ udpReply p = q := by
  rw [xdpUdpEcho_run]
  split_ifs with hlen hproto
  · simp [show ¬ 42 ≤ p.length by omega]
  · simp [hproto]
  · simp [show 42 ≤ p.length by omega, not_not.mp hproto]

/-- Two bytes sent from 10.0.0.2, port 40000, to port 9000 of 10.0.0.1. -/
def udpRequest : Frame :=
  [2, 0, 0, 0, 0, 1, 2, 0, 0, 0, 0, 2, 8, 0,
    69, 0, 0, 30, 0, 1, 0, 0, 64, 17, 102, 204, 10, 0, 0, 2, 10, 0, 0, 1,
    156, 64, 35, 40, 0, 10, 128, 161, 171, 205]

end KernelBypass.Xdp.UdpEcho
