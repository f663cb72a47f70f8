import KernelBypass.Common.RewriteHelpers
import KernelBypass.Xdp.IcmpEcho
import KernelBypass.Xdp.UdpEcho
import Mathlib.Data.Vector.Basic

namespace KernelBypass.Xdp.SwapChecksums

open Foundation Buffer Access OnesComplement Linux Common.RewriteHelpers Readdress UdpEcho

def swapPorts (udp : ℕ) : XdpProgram Unit := do
  let sp ← load (udp + Udphdr.source) 2
  memcpy (udp + Udphdr.source) (udp + Udphdr.dest) 2
  store (udp + Udphdr.dest) sp

def headerAt (p : Frame) (ip : ℕ) : List UInt8 := slice p ip (4 * Iphdr.ihl (cell p ip))

def pseudoHeaderAt (p : Frame) (ip udp : ℕ) : List UInt8 :=
  slice p (ip + Iphdr.saddr) 8 ++ [0, cell p (ip + Iphdr.protocol)] ++ slice p (udp + Udphdr.len) 2

def pseudoHeaderAt6 (p : Frame) (ipv6 : ℕ) (len : List.Vector UInt8 4) (nexthdr : UInt8) :
    List UInt8 :=
  slice p (ipv6 + Ipv6hdr.saddr) 32 ++ (len.toList ++ [0, 0, 0, nexthdr])

def keepChecks (p q : Frame) : Frame :=
  overwrite (overwrite q 24 (slice p 24 2)) 40 (slice p 40 2)

variable {p : Frame}

section Runs

theorem swap_run {a b n : ℕ} (ha : a + n ≤ p.length) (hb : b + n ≤ p.length) :
    (do let tmp ← load a n; memcpy a b n; store b tmp : XdpProgram Unit) p =
      .ok ((), exchange p a b n) := by
  have hrun := exchange_run ha hb (pure : Unit → XdpProgram Unit)
  simpa only [pure_run, bind_pure] using hrun

theorem swapSrcDstMac_run (h : 12 ≤ p.length) :
    swapSrcDstMac 0 p = .ok ((), exchange p 0 6 6) := by
  rw [← exchange_comm (by omega) (by omega)]
  exact swap_run (a := 6) (b := 0) (n := 6) (by omega) (by omega)

theorem swapSrcDstIpv4_run {ip : ℕ} (h : ip + 20 ≤ p.length) :
    swapSrcDstIpv4 ip p = .ok ((), exchange p (ip + 12) (ip + 16) 4) :=
  swap_run (a := ip + 12) (b := ip + 16) (n := 4) (by omega) (by omega)

theorem swapSrcDstIpv6_run {ipv6 : ℕ} (h : ipv6 + 40 ≤ p.length) :
    swapSrcDstIpv6 ipv6 p = .ok ((), exchange p (ipv6 + 8) (ipv6 + 24) 16) :=
  swap_run (a := ipv6 + 8) (b := ipv6 + 24) (n := 16) (by omega) (by omega)

theorem swapPorts_run {udp : ℕ} (h : udp + 4 ≤ p.length) :
    swapPorts udp p = .ok ((), exchange p udp (udp + 2) 2) :=
  swap_run (a := udp) (b := udp + 2) (n := 2) (by omega) (by omega)

end Runs

section Sums

/-- Two neighbouring ranges at the start of a message change places. -/
theorem total_swap {a n m : ℕ} (hn : n % 2 = 0) (h : a + (n + n + m) ≤ p.length) :
    total (slice (exchange p a (a + n) n) a (n + n + m)) = total (slice p a (n + n + m)) := by
  have hswap := total_exchange (p := p) (i := a) (k := 0) (n := n) (d := 0) (m := m) rfl hn rfl
    (by omega)
  simpa only [Nat.add_zero, Nat.zero_add] using hswap

theorem total_headerAt {ip : ℕ} (hihl : 5 ≤ Iphdr.ihl (cell p ip))
    (h : ip + 4 * Iphdr.ihl (cell p ip) ≤ p.length) :
    total (headerAt (exchange p (ip + 12) (ip + 16) 4) ip) = total (headerAt p ip) := by
  have hfirst : cell (exchange p (ip + 12) (ip + 16) 4) ip = cell p ip :=
    cell_exchange_of_outside (by omega) (by omega) (by omega) (by omega)
  obtain ⟨m, hm⟩ := Nat.exists_eq_add_of_le (show 20 ≤ 4 * Iphdr.ihl (cell p ip) by omega)
  rw [headerAt, hfirst, headerAt, hm]
  exact total_exchange (p := p) (i := ip) (k := 12) (n := 4) (d := 0) (m := m) rfl rfl rfl (by omega)

theorem total_datagram {ip udp n : ℕ} (hip : ip + 20 ≤ p.length) (hudp : udp + 8 ≤ p.length) :
    total (pseudoHeaderAt p ip udp ++ slice p udp n) =
      total (slice p (ip + 12) 8) + total [0, cell p (ip + 9)] + total (slice p (udp + 4) 2) +
        total (slice p udp n) := by
  have haddr : (slice p (ip + 12) 8).length = 8 := length_slice (by omega)
  have hlen : (slice p (udp + 4) 2).length = 2 := length_slice (by omega)
  have hmid : [0, cell p (ip + 9)].length = 2 := rfl
  rw [pseudoHeaderAt, total_append, total_append, total_append]
  · rw [haddr]
  · rw [List.length_append, haddr, hmid]
  · rw [List.length_append, List.length_append, haddr, hmid, hlen]

theorem total_swapped_addresses {ip udp n : ℕ} (hip : ip + 20 ≤ udp) (hn : 8 ≤ n)
    (h : udp + n ≤ p.length) :
    total (pseudoHeaderAt (exchange p (ip + 12) (ip + 16) 4) ip udp ++
        slice (exchange p (ip + 12) (ip + 16) 4) udp n) =
      total (pseudoHeaderAt p ip udp ++ slice p udp n) := by
  have hlen : (exchange p (ip + 12) (ip + 16) 4).length = p.length :=
    length_exchange (by omega) (by omega)
  have haddr : total (slice (exchange p (ip + 12) (ip + 16) 4) (ip + 12) 8) =
      total (slice p (ip + 12) 8) :=
    total_swap (p := p) (a := ip + 12) (n := 4) (m := 0) rfl (by omega)
  rw [total_datagram (by omega) (by omega), total_datagram (by omega) (by omega), haddr,
    cell_exchange_of_outside (by omega) (by omega) (by omega) (by omega),
    slice_exchange_of_disjoint (by omega) (by omega) (by omega) (by omega) (by omega),
    slice_exchange_of_disjoint (by omega) (by omega) (by omega) (by omega) (by omega)]

theorem total_swapped_ports {ip udp n : ℕ} (hip : ip + 20 ≤ udp) (hn : 8 ≤ n)
    (h : udp + n ≤ p.length) :
    total (pseudoHeaderAt (exchange p udp (udp + 2) 2) ip udp ++
        slice (exchange p udp (udp + 2) 2) udp n) =
      total (pseudoHeaderAt p ip udp ++ slice p udp n) := by
  have hlen : (exchange p udp (udp + 2) 2).length = p.length :=
    length_exchange (by omega) (by omega)
  obtain ⟨m, rfl⟩ := Nat.exists_eq_add_of_le (show 2 + 2 ≤ n by omega)
  rw [total_datagram (by omega) (by omega), total_datagram (by omega) (by omega),
    total_swap rfl (by omega), cell_exchange_of_outside (by omega) (by omega) (by omega) (by omega),
    slice_exchange_of_disjoint (by omega) (by omega) (by omega) (by omega) (by omega),
    slice_exchange_of_disjoint (by omega) (by omega) (by omega) (by omega) (by omega)]

variable {ipv6 l4 n : ℕ} (len : List.Vector UInt8 4) (nexthdr : UInt8)

theorem total_message6 (h : ipv6 + 40 ≤ p.length) :
    total (pseudoHeaderAt6 p ipv6 len nexthdr ++ slice p l4 n) =
      total (slice p (ipv6 + 8) 32) + total (len.toList ++ [0, 0, 0, nexthdr]) +
        total (slice p l4 n) := by
  have haddr : (slice p (ipv6 + 8) 32).length = 32 := length_slice (by omega)
  have hrest : (len.toList ++ [0, 0, 0, nexthdr]).length = 8 := by
    rw [List.length_append, len.toList_length]
    rfl
  rw [pseudoHeaderAt6, total_append, total_append]
  · rw [haddr]
  · rw [List.length_append, haddr, hrest]

theorem total_swapped_addresses6 (hl4 : ipv6 + 40 ≤ l4) (h : l4 + n ≤ p.length) :
    total (pseudoHeaderAt6 (exchange p (ipv6 + 8) (ipv6 + 24) 16) ipv6 len nexthdr ++
        slice (exchange p (ipv6 + 8) (ipv6 + 24) 16) l4 n) =
      total (pseudoHeaderAt6 p ipv6 len nexthdr ++ slice p l4 n) := by
  have hlen : (exchange p (ipv6 + 8) (ipv6 + 24) 16).length = p.length :=
    length_exchange (by omega) (by omega)
  have haddr : total (slice (exchange p (ipv6 + 8) (ipv6 + 24) 16) (ipv6 + 8) 32) =
      total (slice p (ipv6 + 8) 32) :=
    total_swap (p := p) (a := ipv6 + 8) (n := 16) (m := 0) rfl (by omega)
  rw [total_message6 _ _ (by omega), total_message6 _ _ (by omega), haddr,
    slice_exchange_of_disjoint (by omega) (by omega) (by omega) (by omega) (by omega)]

theorem total_swapped_ports6 (hl4 : ipv6 + 40 ≤ l4) (hn : 8 ≤ n) (h : l4 + n ≤ p.length) :
    total (pseudoHeaderAt6 (exchange p l4 (l4 + 2) 2) ipv6 len nexthdr ++
        slice (exchange p l4 (l4 + 2) 2) l4 n) =
      total (pseudoHeaderAt6 p ipv6 len nexthdr ++ slice p l4 n) := by
  have hlen : (exchange p l4 (l4 + 2) 2).length = p.length := length_exchange (by omega) (by omega)
  obtain ⟨m, rfl⟩ := Nat.exists_eq_add_of_le (show 2 + 2 ≤ n by omega)
  rw [total_message6 _ _ (by omega), total_message6 _ _ (by omega), total_swap rfl (by omega),
    slice_exchange_of_disjoint (by omega) (by omega) (by omega) (by omega) (by omega)]

end Sums

/-- A message and what has become of it have the same one's-complement sum, so that a
receiver accepts both or none. -/
structure SameSum (l k : List UInt8) : Prop where
  folded : folded k = folded l
  verifies : Verifies k ↔ Verifies l

theorem sameSum_of_total {l k : List UInt8} (h : total k = total l) : SameSum l k := by
  refine ⟨folded_congr h, ?_⟩
  rw [verifies_iff, verifies_iff, h]

structure Exchanged (a b n : ℕ) (p q : Frame) : Prop where
  left : slice q a n = slice p b n
  right : slice q b n = slice p a n

theorem exchanged_exchange {a b n : ℕ} (hab : a + n ≤ b) (hb : b + n ≤ p.length) :
    Exchanged a b n p (exchange p a b n) :=
  ⟨slice_exchange_left hab hb, slice_exchange_right hab hb⟩

/-- Nothing but the cleared checksum fields tells the reply of the UDP program from what
the exchanges alone make of the request. -/
theorem keepChecks_udpReply (h : 42 ≤ p.length) :
    keepChecks p (udpReply p) = exchange (exchange (exchange p 0 6 6) 26 30 4) 34 36 2 := by
  have hmac := length_exchange_mac (p := p) (by omega)
  have hip := length_exchange_ip (p := p) (by omega)
  have hreply := length_udpReply h
  have hcheck : (slice p 24 2).length = 2 := length_slice (by omega)
  have hcheck' : (slice p 40 2).length = 2 := length_slice (by omega)
  have hlen : (overwrite (udpReply p) 24 (slice p 24 2)).length = p.length := by
    rw [length_overwrite (by omega), hreply]
  apply ext_cell
  · rw [keepChecks, length_overwrite (by omega), hlen, length_exchange (by omega) (by omega), hip]
  · intro j _
    have hsource : cell (exchange (exchange (exchange p 0 6 6) 26 30 4) 34 36 2) j =
        cell p (echoSource j) := by
      rw [cell_exchange (by omega) (by omega), cell_exchange (by omega) (by omega),
        cell_exchange (by omega) (by omega)]
      rfl
    rw [hsource, keepChecks, cell_overwrite (by omega), hcheck', cell_overwrite (by omega), hcheck,
      cell_udpReply h]
    by_cases hudp : 40 ≤ j ∧ j < 40 + 2
    · rw [if_pos hudp, cell_slice (by omega), Nat.add_sub_cancel' hudp.1,
        echoSource_of_fixed (by omega)]
    · rw [if_neg hudp]
      by_cases hhead : 24 ≤ j ∧ j < 24 + 2
      · rw [if_pos hhead, cell_slice (by omega), Nat.add_sub_cancel' hhead.1,
          echoSource_of_fixed (by omega)]
      · rw [if_neg hhead, if_neg (by omega)]

/-- The exchanges move whole words of what the checksums cover, so that a checksum which
is kept stays as right or as wrong as it was. -/
theorem swaps_preserve_checksums (p : Frame) :
    (∀ ip, 5 ≤ Iphdr.ihl (cell p ip) → ip + 4 * Iphdr.ihl (cell p ip) ≤ p.length →
      ∃ q, swapSrcDstIpv4 ip p = .ok ((), q) ∧ IcmpEcho.swapSrcDstIpv4 ip p = .ok ((), q) ∧
        Exchanged (ip + Iphdr.saddr) (ip + Iphdr.daddr) 4 p q ∧
        SameSum (headerAt p ip) (headerAt q ip)) ∧
    (∀ ip udp n, ip + 20 ≤ udp → 8 ≤ n → udp + n ≤ p.length →
      ∃ q, (do swapSrcDstIpv4 ip; swapPorts udp) p = .ok ((), q) ∧
        SameSum (pseudoHeaderAt p ip udp ++ slice p udp n)
          (pseudoHeaderAt q ip udp ++ slice q udp n)) ∧
    (∀ ipv6 l4 n len nexthdr, ipv6 + 40 ≤ l4 → l4 + n ≤ p.length →
      ∃ q, swapSrcDstIpv6 ipv6 p = .ok ((), q) ∧
        Exchanged (ipv6 + Ipv6hdr.saddr) (ipv6 + Ipv6hdr.daddr) 16 p q ∧
        SameSum (pseudoHeaderAt6 p ipv6 len nexthdr ++ slice p l4 n)
          (pseudoHeaderAt6 q ipv6 len nexthdr ++ slice q l4 n) ∧
        (8 ≤ n → ∃ r, swapPorts l4 q = .ok ((), r) ∧
          SameSum (pseudoHeaderAt6 p ipv6 len nexthdr ++ slice p l4 n)
            (pseudoHeaderAt6 r ipv6 len nexthdr ++ slice r l4 n))) ∧
    ∀ order q, xdpUdpEcho order p = .ok (.tx, q) →
      (do swapSrcDstMac 0; swapSrcDstIpv4 14; swapPorts 34) p = .ok ((), keepChecks p q) := by
  refine ⟨fun ip hihl h ↦ ?_, fun ip udp n hip hn h ↦ ?_,
    fun ipv6 l4 n len nexthdr hl4 h ↦ ?_, fun order q hq ↦ ?_⟩
  · have hrun : swapSrcDstIpv4 ip p = .ok ((), exchange p (ip + 12) (ip + 16) 4) :=
      swapSrcDstIpv4_run (by omega)
    have hswap : Exchanged (ip + 12) (ip + 16) 4 p _ := exchanged_exchange (by omega) (by omega)
    exact ⟨_, hrun, hrun, hswap, sameSum_of_total (total_headerAt hihl h)⟩
  · have hlen : (exchange p (ip + 12) (ip + 16) 4).length = p.length :=
      length_exchange (by omega) (by omega)
    have hports := total_swapped_ports hip hn (hlen.symm ▸ h)
    refine ⟨_, ?_, sameSum_of_total (hports.trans (total_swapped_addresses hip hn h))⟩
    rw [bind_run (swapSrcDstIpv4_run (by omega)), swapPorts_run (by omega)]
  · have hlen : (exchange p (ipv6 + 8) (ipv6 + 24) 16).length = p.length :=
      length_exchange (by omega) (by omega)
    have hsum := total_swapped_addresses6 len nexthdr hl4 h
    have hswap : Exchanged (ipv6 + 8) (ipv6 + 24) 16 p _ :=
      exchanged_exchange (by omega) (by omega)
    refine ⟨_, swapSrcDstIpv6_run (by omega), hswap, sameSum_of_total hsum, fun hn ↦ ?_⟩
    exact ⟨_, swapPorts_run (by omega), sameSum_of_total
      ((total_swapped_ports6 len nexthdr hl4 hn (by omega)).trans hsum)⟩
  · obtain ⟨hlen, _, rfl⟩ := (xdpUdpEcho_tx_iff order p q).mp hq
    have hmac := length_exchange_mac (p := p) (by omega)
    have hip := length_exchange_ip (p := p) (by omega)
    have hrun : swapSrcDstIpv4 14 (exchange p 0 6 6) =
        .ok ((), exchange (exchange p 0 6 6) 26 30 4) := swapSrcDstIpv4_run (by omega)
    rw [bind_run (swapSrcDstMac_run (by omega)), bind_run hrun, swapPorts_run (by omega),
      keepChecks_udpReply hlen]

theorem swaps_preserve_checksums_request :
    (∃ q, swapSrcDstIpv4 14 udpRequest = .ok ((), q) ∧ Verifies (headerAt q 14)) ∧
      ∃ q, (do swapSrcDstIpv4 14; swapPorts 34) udpRequest = .ok ((), q) ∧
        Verifies (pseudoHeaderAt q 14 34 ++ slice q 34 10) := by
  obtain ⟨hheader, hdatagram, _⟩ := swaps_preserve_checksums udpRequest
  obtain ⟨q, hq, _, _, hsum⟩ := hheader 14 (by decide) (by decide)
  obtain ⟨r, hr, hsum'⟩ := hdatagram 14 34 10 (by decide) (by decide) (by decide)
  exact ⟨⟨q, hq, hsum.verifies.mpr (by decide)⟩, r, hr, hsum'.verifies.mpr (by decide)⟩

end KernelBypass.Xdp.SwapChecksums
