import KernelBypass.Common.ParsingHelpers
import KernelBypass.Xdp.UdpBounce

namespace KernelBypass.Xdp.UdpService

open Foundation Buffer Access Linux Common.ParsingHelpers UdpEcho UdpBounce

variable (order : ByteOrder)

@[mk_iff]
structure IsIpv4Udp (p : Frame) : Prop where
  ipv4 : etherType p = 0x0800
  fixed : 34 ≤ p.length
  header : 5 ≤ ihl p
  options : l4Offset p ≤ p.length
  udp : protocol p = 17

instance (p : Frame) : Decidable (IsIpv4Udp p) := decidable_of_iff' _ (isIpv4Udp_iff p)

/-- Traffic other than UDP over IPv4 reaches the stack as it is exactly where it is long enough
for the three headers and does not have the UDP number where an IPv4 header would. The program
does not look at the EtherType, and takes anything with that number for a request. -/
theorem udp_echo_transparent (p : Frame) (h : ¬ IsIpv4Udp p) :
    (xdpUdpEcho order p = .ok (.pass, p) ↔ 42 ≤ p.length ∧ cell p 23 ≠ 17) ∧
    (42 ≤ p.length → cell p 23 = 17 → xdpUdpEcho order p = .ok (.tx, udpReply p) ∧
      (etherType p ≠ 0x0800 ∨ ihl p < 5 ∨ p.length < l4Offset p)) := by
  constructor
  · rw [xdpUdpEcho_run, Except.ok.injEq]
    split_ifs with hshort hproto
    · exact iff_of_false (fun heq ↦ nomatch (Prod.mk.inj heq).1) fun hlong ↦ by omega
    · exact iff_of_true rfl ⟨by omega, hproto⟩
    · exact iff_of_false (fun heq ↦ nomatch (Prod.mk.inj heq).1) fun hother ↦ hproto hother.2
  · intro hlong hudp
    rw [xdpUdpEcho_run, if_neg (by omega), if_neg (not_not.mpr hudp)]
    refine ⟨rfl, ?_⟩
    by_contra! hheader
    exact h ⟨hheader.1, by omega, hheader.2.1, hheader.2.2, hudp⟩

theorem udp_echo_transparent_tcp : ¬ IsIpv4Udp (overwrite udpRequest 23 [6]) ∧
    xdpUdpEcho .little (overwrite udpRequest 23 [6]) = .ok (.pass, overwrite udpRequest 23 [6]) := by
  have htcp : ¬ IsIpv4Udp (overwrite udpRequest 23 [6]) := by decide
  exact ⟨htcp, (udp_echo_transparent .little _ htcp).1.mpr ⟨by decide, by decide⟩⟩

/-- 10.0.0.2 asks for the hardware address of 10.0.0.1. Its own one is 02:11:00:00:00:02. -/
def arpRequest : Frame :=
  [255, 255, 255, 255, 255, 255, 2, 17, 0, 0, 0, 2, 8, 6,
    0, 1, 8, 0, 6, 4, 0, 1, 2, 17, 0, 0, 0, 2, 10, 0, 0, 2, 0, 0, 0, 0, 0, 0, 10, 0, 0, 1]

theorem udp_echo_answers_arp : ¬ IsIpv4Udp arpRequest ∧
    xdpUdpEcho .little arpRequest = .ok (.tx, udpReply arpRequest) ∧
    udpReply arpRequest ≠ arpRequest ∧ xdpUdpEcho .little arpRequest ≠ .ok (.pass, arpRequest) := by
  have hrun : xdpUdpEcho .little arpRequest = .ok (.tx, udpReply arpRequest) := by
    rw [xdpUdpEcho_run, if_neg (by decide), if_neg (by decide)]
  refine ⟨by decide, hrun, by decide, ?_⟩
  rw [hrun]
  intro hpass
  cases hpass

@[mk_iff]
structure UdpRequest (p : Frame) : Prop where
  ipv4 : etherType p = 0x0800
  udp : protocol p = 17
  header : 5 ≤ ihl p
  unfragmented : netWord p 20 % 0x4000 = 0
  fits : l4Offset p + 8 ≤ p.length

instance (p : Frame) : Decidable (UdpRequest p) := decidable_of_iff' _ (udpRequest_iff p)

/-- The parsers find three headers, and `parse_udphdr` answers `len`: the length of the payload,
or -1 where the length field is less than that of the header, after it has stored where the
header and the payload are. -/
def LocatesUdp (vlanMaxDepth : ℕ) (p : Frame) (eth ip udp payload : ℕ) (len : ℤ) : Prop :=
  ∃ ethPos, parseEthhdr order vlanMaxDepth 0 p =
      .ok (⟨(bpfHtons order ethPIp).toNat, ethPos, some eth⟩, p) ∧
    parseIphdr ethPos p = .ok (⟨ipprotoUdp.toNat, udp, some ip⟩, p) ∧
    parseUdphdr order udp p = .ok (⟨len, payload, some udp⟩, p)

structure RepliesTo (p q : Frame) (eth ip udp payload : ℕ) : Prop where
  length : q.length = p.length
  dest : slice q (eth + Ethhdr.hDest) 6 = slice p (eth + Ethhdr.hSource) 6
  source : slice q (eth + Ethhdr.hSource) 6 = slice p (eth + Ethhdr.hDest) 6
  fields : slice q ip 10 = slice p ip 10
  saddr : slice q (ip + Iphdr.saddr) 4 = slice p (ip + Iphdr.daddr) 4
  daddr : slice q (ip + Iphdr.daddr) 4 = slice p (ip + Iphdr.saddr) 4
  options : slice q (ip + Iphdr.size) (udp - (ip + Iphdr.size)) =
    slice p (ip + Iphdr.size) (udp - (ip + Iphdr.size))
  sport : slice q (udp + Udphdr.source) 2 = slice p (udp + Udphdr.dest) 2
  dport : slice q (udp + Udphdr.dest) 2 = slice p (udp + Udphdr.source) 2
  len : slice q (udp + Udphdr.len) 2 = slice p (udp + Udphdr.len) 2
  check : slice q (udp + Udphdr.check) 2 = [0, 0]
  payload : q.drop payload = p.drop payload

/-- The program transmits, and parsers that find the headers of the request find a
reply in the same places. -/
def EchoesRequest (vlanMaxDepth : ℕ) (p : Frame) : Prop :=
  ∃ q eth ip udp payload len, xdpUdpEcho order p = .ok (.tx, q) ∧
    LocatesUdp order vlanMaxDepth p eth ip udp payload len ∧
    LocatesUdp order vlanMaxDepth q eth ip udp payload len ∧ RepliesTo p q eth ip udp payload

section Layout

variable {order} {vlanMaxDepth : ℕ} {p q : Frame}

theorem LocatesUdp.unique {eth ip udp payload eth' ip' udp' payload' : ℕ} {len len' : ℤ}
    (h : LocatesUdp order vlanMaxDepth p eth ip udp payload len)
    (h' : LocatesUdp order vlanMaxDepth p eth' ip' udp' payload' len') :
    eth = eth' ∧ ip = ip' ∧ udp = udp' ∧ payload = payload' := by
  obtain ⟨pos, heth, hip, hudp⟩ := h
  obtain ⟨pos', heth', hip', hudp'⟩ := h'
  rw [heth] at heth'
  cases heth'
  rw [hip] at hip'
  cases hip'
  rw [hudp] at hudp'
  cases hudp'
  exact ⟨rfl, rfl, rfl, rfl⟩

def payloadLen (p : Frame) : ℤ :=
  if netWord p (l4Offset p + 4) < 8 then -1 else netWord p (l4Offset p + 4) - 8

theorem UdpRequest.parses (h : UdpRequest p) :
    LocatesUdp order vlanMaxDepth p 0 14 (l4Offset p) (l4Offset p + 8) (payloadLen p) := by
  have hfit := h.fits
  have hihl : 5 ≤ Iphdr.ihl (cell p 14) := h.header
  have hoff : l4Offset p = 14 + 4 * Iphdr.ihl (cell p 14) := rfl
  have hword := (word16_eq_htons_ip order _ _).mpr (etherType_eq_ip.mp h.ipv4)
  refine ⟨14, parseEthhdr_ip (by omega) hword, ?_, ?_⟩
  · have hproto : cell p (14 + 9) = 17 := h.udp
    rw [parseIphdr_run, if_pos ⟨by omega, hihl, by omega⟩, hproto, ← hoff]
  · rw [parseUdphdr_run, if_pos hfit, payloadLen]

theorem UdpRequest.long (h : UdpRequest p) : 42 ≤ p.length := by
  have hfit := h.fits
  have hihl := h.header
  unfold l4Offset at hfit
  omega

theorem l4Offset_udpReply (h : 42 ≤ p.length) : l4Offset (udpReply p) = l4Offset p := by
  rw [l4Offset, ihl_udpReply h, l4Offset]

theorem UdpRequest.udpReply (h : UdpRequest p) : UdpRequest (udpReply p) := by
  have hcell (j : ℕ) (hj : 12 ≤ j ∧ j < 24) : cell (UdpEcho.udpReply p) j = cell p j :=
    cell_udpReply_of_fixed h.long (Or.inl hj)
  refine ⟨?_, ?_, ?_, ?_, ?_⟩
  · rw [← h.ipv4]
    exact netWord_congr (hcell 12 (by omega)) (hcell 13 (by omega))
  · rw [← h.udp]
    exact hcell 23 (by omega)
  · rw [ihl_udpReply h.long]
    exact h.header
  · rw [netWord_congr (hcell 20 (by omega)) (hcell 21 (by omega))]
    exact h.unfragmented
  · rw [l4Offset_udpReply h.long, length_udpReply h.long]
    exact h.fits

end Layout

section Fields

variable {p q : Frame}

theorem repliesTo_of_echoes (he : Echoes p q) (hlen : 42 ≤ p.length) : RepliesTo p q 0 14 34 42 where
  length := he.length
  dest := he.dest
  source := he.source
  fields := he.slice_of_fixed (by omega) (by omega)
  saddr := he.saddr
  daddr := he.daddr
  options := (slice_zero q 34).trans (slice_zero p 34).symm
  sport := he.sport
  dport := he.dport
  len := he.slice_of_fixed (i := 38) (by omega) (by omega)
  check := he.udpCheck
  payload := drop_congr he.length fun j hj ↦ he.others j (by omega)

/-- With options the writes fall on the first option words, and on the ports
themselves when there is only one such word. -/
def OptionsUnharmed (p : Frame) : Prop :=
  netWord p 34 = netWord p 36 ∧ netWord p 40 = 0 ∧
    netWord p (l4Offset p) = netWord p (l4Offset p + 2) ∧ netWord p (l4Offset p + 6) = 0

theorem same_of_unharmed (he : Echoes p q) (hlen : 42 ≤ p.length) (h : OptionsUnharmed p)
    {j : ℕ} (hj : 34 ≤ j) : cell q j = cell p j := by
  have hq := he.length
  obtain ⟨hport, hcheck, _⟩ := h
  have hsport : netWord q 34 = netWord p 34 :=
    ((netWord_eq_iff (by omega) (by omega)).mpr he.sport).trans hport.symm
  have hdport : netWord q 36 = netWord p 36 :=
    ((netWord_eq_iff (by omega) (by omega)).mpr he.dport).trans hport
  have hudp : netWord q 40 = netWord p 40 :=
    (netWord_eq_zero (by omega) he.udpCheck).trans hcheck.symm
  by_cases hfix : 38 ≤ j ∧ j < 40 ∨ 42 ≤ j
  · exact he.others j (Or.inr hfix)
  · obtain rfl | rfl | rfl | rfl | rfl | rfl :
        j = 34 ∨ j = 35 ∨ j = 36 ∨ j = 37 ∨ j = 40 ∨ j = 41 := by omega
    · exact (netWord_inj hsport).1
    · exact (netWord_inj hsport).2
    · exact (netWord_inj hdport).1
    · exact (netWord_inj hdport).2
    · exact (netWord_inj hudp).1
    · exact (netWord_inj hudp).2

theorem repliesTo_of_unharmed (he : Echoes p q) (hihl : 5 < ihl p) (hfit : l4Offset p + 8 ≤ p.length)
    (h : OptionsUnharmed p) : RepliesTo p q 0 14 (l4Offset p) (l4Offset p + 8) := by
  have hq := he.length
  have hoff : l4Offset p = 14 + 4 * ihl p := rfl
  have hsame {j : ℕ} (hj : 34 ≤ j) : cell q j = cell p j := same_of_unharmed he (by omega) h hj
  have hslice {i n : ℕ} (hi : 34 ≤ i) (hn : i + n ≤ p.length) : slice q i n = slice p i n :=
    slice_congr (by omega) hn fun k _ ↦ hsame (by omega)
  have hports : slice p (l4Offset p) 2 = slice p (l4Offset p + 2) 2 :=
    (netWord_eq_iff (by omega) (by omega)).mp h.2.2.1
  have hcheck : slice p (l4Offset p + 6) 2 = [0, 0] := by
    have hzero : netWord p (l4Offset p + 6) = netWord ([0, 0] : Frame) 0 := h.2.2.2
    exact (netWord_eq_iff (by omega) (by simp)).mp hzero
  refine ⟨hq, he.dest, he.source, he.slice_of_fixed (by omega) (by omega), he.saddr, he.daddr,
    ?_, ?_, ?_, ?_, ?_, drop_congr hq fun j hj ↦ hsame (by omega)⟩
  · exact hslice (i := 34) (by omega) (by change 34 + (l4Offset p - 34) ≤ _; omega)
  · exact (hslice (i := l4Offset p) (by omega) (by omega)).trans hports
  · exact (hslice (i := l4Offset p + 2) (by omega) (by omega)).trans hports.symm
  · exact hslice (i := l4Offset p + 4) (by omega) (by omega)
  · exact (hslice (i := l4Offset p + 6) (by omega) (by omega)).trans hcheck

theorem unharmed_of_repliesTo (he : Echoes p q) (hihl : 5 < ihl p) (hfit : l4Offset p + 8 ≤ p.length)
    (h : RepliesTo p q 0 14 (l4Offset p) (l4Offset p + 8)) : OptionsUnharmed p := by
  have hq := he.length
  have hoff : l4Offset p = 14 + 4 * ihl p := rfl
  have hwords {i j : ℕ} (hi : i + 2 ≤ p.length) (hj : j + 2 ≤ p.length)
      (hs : slice q i 2 = slice p j 2) : netWord q i = netWord p j :=
    (netWord_eq_iff (by omega) hj).mpr hs
  have hfixed {i : ℕ} (hi : i + 2 ≤ p.length) (hf : i = 38 ∨ 42 ≤ i) : netWord q i = netWord p i :=
    hwords hi hi (he.slice_of_fixed hi (by omega))
  have hoption {i : ℕ} (hi : 34 ≤ i) (hn : i + 2 ≤ l4Offset p) : netWord q i = netWord p i := by
    have hopts : slice q 34 (l4Offset p - 34) = slice p 34 (l4Offset p - 34) := h.options
    have hcell (k : ℕ) (hk : k < l4Offset p - 34) : cell q (34 + k) = cell p (34 + k) := by
      rw [← cell_slice hk, hopts, cell_slice hk]
    obtain ⟨k, rfl⟩ := Nat.exists_eq_add_of_le hi
    exact netWord_congr (hcell k (by omega)) (hcell (k + 1) (by omega))
  have hport := hwords (by omega) (by omega) he.sport
  have hcheck := netWord_eq_zero (by omega) he.udpCheck
  have hsport := hwords (i := l4Offset p) (j := l4Offset p + 2) (by omega) (by omega) h.sport
  have hdport := hwords (i := l4Offset p + 2) (j := l4Offset p) (by omega) (by omega) h.dport
  have hudp := netWord_eq_zero (i := l4Offset p + 6) (by omega) h.check
  have hfirst := hoption (i := 34) (by omega) (by omega)
  have hsource : netWord q (l4Offset p) = netWord p (l4Offset p) := hfixed (by omega) (by omega)
  have hlast : netWord q (l4Offset p + 6) = netWord p (l4Offset p + 6) := hfixed (by omega) (by omega)
  refine ⟨by omega, ?_, by omega, by omega⟩
  obtain hone | hmore : l4Offset p = 38 ∨ 42 ≤ l4Offset p := by omega
  · -- the cleared word is the destination port
    simp only [hone, Nat.reduceAdd] at hsport hdport hsource
    omega
  · rw [← hoption (i := 40) (by omega) hmore]
    exact hcheck

end Fields

/-- The reply is a reply exactly when there are no options, or when the writes at the
fixed offsets change nothing and the request asks for nothing else to change. -/
theorem udp_echo_replies (vlanMaxDepth : ℕ) (p : Frame) (h : UdpRequest p) :
    EchoesRequest order vlanMaxDepth p ↔ ihl p = 5 ∨
      netWord p 34 = netWord p 36 ∧ netWord p 40 = 0 ∧
        netWord p (l4Offset p) = netWord p (l4Offset p + 2) ∧ netWord p (l4Offset p + 6) = 0 := by
  have hlen := h.long
  have hihl := h.header
  have hoff : l4Offset p = 14 + 4 * ihl p := rfl
  have he := udpReply_echoes hlen
  constructor
  · rintro ⟨q, eth, ip, udp, payload, len, hq, hp, _, hr⟩
    obtain ⟨_, _, rfl⟩ := (xdpUdpEcho_tx_iff order p q).mp hq
    obtain ⟨rfl, rfl, rfl, rfl⟩ := hp.unique h.parses
    obtain hfive | hmore := Nat.eq_or_lt_of_le hihl
    · exact Or.inl hfive.symm
    · exact Or.inr (unharmed_of_repliesTo he hmore h.fits hr)
  · intro hcond
    have hr : RepliesTo p (udpReply p) 0 14 (l4Offset p) (l4Offset p + 8) := by
      obtain hfive | hmore := Nat.eq_or_lt_of_le hihl
      · rw [show l4Offset p = 34 by omega]
        exact repliesTo_of_echoes he hlen
      · exact repliesTo_of_unharmed he hmore h.fits (hcond.resolve_left (by omega))
    have hpay : payloadLen (udpReply p) = payloadLen p := by
      have hword : netWord (udpReply p) (l4Offset p + 4) = netWord p (l4Offset p + 4) := by
        have hfit := h.fits
        exact (netWord_eq_iff (by rw [length_udpReply hlen]; omega) (by omega)).mpr hr.len
      rw [payloadLen, payloadLen, l4Offset_udpReply hlen, hword]
    have hparse : LocatesUdp order vlanMaxDepth (udpReply p) 0 14 (l4Offset p) (l4Offset p + 8)
        (payloadLen p) := by
      rw [← hpay, ← l4Offset_udpReply hlen]
      exact h.udpReply.parses
    exact ⟨_, 0, 14, l4Offset p, l4Offset p + 8, payloadLen p,
      (xdpUdpEcho_tx_iff order p _).mpr ⟨hlen, h.udp, rfl⟩, h.parses, hparse, hr⟩

def optionsRequest : Frame :=
  [2, 0, 0, 0, 0, 1, 2, 0, 0, 0, 0, 2, 8, 0,
    70, 0, 0, 34, 0, 1, 0, 0, 64, 17, 99, 198, 10, 0, 0, 2, 10, 0, 0, 1, 1, 1, 1, 1,
    156, 64, 35, 40, 0, 10, 128, 161, 171, 205]

theorem udp_echo_replies_request : EchoesRequest .little 2 udpRequest :=
  (udp_echo_replies .little 2 udpRequest (by decide)).mpr (Or.inl (by decide))

theorem udp_echo_misses_options : UdpRequest optionsRequest ∧
    (∀ q, xdpUdpEcho .little optionsRequest = .ok (.tx, q) →
      slice q (l4Offset q) 4 = [156, 64, 0, 0] ∧ slice optionsRequest (l4Offset optionsRequest) 4 =
        [156, 64, 35, 40]) ∧
    ¬ EchoesRequest .little 2 optionsRequest := by
  have h : UdpRequest optionsRequest := by decide
  refine ⟨h, ?_, ?_⟩
  · intro q hq
    obtain ⟨_, _, rfl⟩ := (xdpUdpEcho_tx_iff .little optionsRequest q).mp hq
    decide
  · rintro ⟨q, eth, ip, udp, payload, len, hq, hp, _, hr⟩
    obtain ⟨_, _, rfl⟩ := (xdpUdpEcho_tx_iff .little optionsRequest q).mp hq
    obtain ⟨rfl, rfl, rfl, rfl⟩ := hp.unique h.parses
    exact absurd hr.sport (by decide)

end KernelBypass.Xdp.UdpService
