import KernelBypass.Common.ParsingHelpers
import KernelBypass.Xdp.IcmpEcho
import KernelBypass.Xdp.UdpEcho

namespace KernelBypass.Xdp.FastPath

open Foundation Buffer Access Linux Common.ParsingHelpers IcmpEcho UdpEcho

variable (order : ByteOrder) (csumDiff : CsumDiff) (vlanMaxDepth : ℕ)

def ParsersFind (p : Frame) (eth ip icmp : ℕ) : Prop :=
  ∃ e i c : Parsed,
    parseEthhdr order vlanMaxDepth 0 p = .ok (e, p) ∧ e.ret ≠ -1 ∧ e.hdr = some eth ∧
    load16 order (eth + Ethhdr.hProto) p = .ok (bpfHtons order ethPIp, p) ∧
    parseIphdr e.pos p = .ok (i, p) ∧ i.ret = ipprotoIcmp.toNat ∧ i.hdr = some ip ∧
    parseIcmphdr i.pos p = .ok (c, p) ∧ c.ret = icmpEcho.toNat ∧ c.hdr = some icmp

/-- The program answers the frames that the parsers find, rewrites the headers they
point at and passes everything else. -/
structure AgreesWithParsers (p : Frame) : Prop where
  answers : (∃ q, xdpIcmpEcho order csumDiff p = .ok (.tx, q)) ↔
    ∃ eth ip icmp, ParsersFind order vlanMaxDepth p eth ip icmp
  rewrites : ∀ q eth ip icmp, xdpIcmpEcho order csumDiff p = .ok (.tx, q) →
    ParsersFind order vlanMaxDepth p eth ip icmp →
    rewriteHeaders order csumDiff eth ip icmp p = .ok ((), q)
  passes : (¬ ∃ eth ip icmp, ParsersFind order vlanMaxDepth p eth ip icmp) →
    xdpIcmpEcho order csumDiff p = .ok (.pass, p)

variable {order csumDiff vlanMaxDepth} {p : Frame}

theorem ParsersFind.ethernet {eth ip icmp : ℕ} (h : ParsersFind order vlanMaxDepth p eth ip icmp) :
    14 ≤ p.length ∧ eth = 0 ∧ etherType p = 0x0800 := by
  obtain ⟨e, i, c, heth, _, hhdr, hload, _⟩ := h
  by_cases hlen : p.length < 14
  · rw [parseEthhdr_short (by omega)] at heth
    cases heth
    cases hhdr
  · obtain ⟨ret, pos, hrun⟩ := parseEthhdr_hdr order (p := p) vlanMaxDepth 0 (by omega)
    rw [hrun] at heth
    cases heth
    cases hhdr
    have hword : order.word16 (cell p 12) (cell p 13) = bpfHtons order ethPIp := by
      change load16 order 12 p = _ at hload
      rw [load16_run order (by omega)] at hload
      exact congrArg Prod.fst (Except.ok.inj hload)
    exact ⟨by omega, rfl, etherType_eq_ip.mpr ((word16_eq_htons_ip order _ _).mp hword)⟩

theorem parsersFind_iff {eth ip icmp : ℕ} : ParsersFind order vlanMaxDepth p eth ip icmp ↔
    Answered p ∧ 5 ≤ ihl p ∧ eth = 0 ∧ ip = 14 ∧ icmp = l4Offset p := by
  constructor
  · intro h
    obtain ⟨hlen, rfl, hip⟩ := h.ethernet
    obtain ⟨e, i, c, heth, _, _, _, hiph, hproto, hihdr, hicmph, htype, hchdr⟩ := h
    have hword := (word16_eq_htons_ip order _ _).mpr (etherType_eq_ip.mp hip)
    rw [parseEthhdr_ip (by omega) hword] at heth
    cases heth
    change parseIphdr 14 p = _ at hiph
    rw [parseIphdr_run] at hiph
    split_ifs at hiph with hcond
    · cases hiph
      cases hihdr
      change parseFixed 8 0 (l4Offset p) p = _ at hicmph
      rw [parseFixed_run (by omega)] at hicmph
      split_ifs at hicmph with hfit
      · cases hicmph
        cases hchdr
        obtain ⟨hfix, hihl, hin⟩ := hcond
        have hoff : l4Offset p = 14 + 4 * Iphdr.ihl (cell p 14) := rfl
        refine ⟨⟨by omega, hip, ?_, hfit, ?_⟩, hihl, rfl, rfl, rfl⟩
        · exact UInt8.toNat_inj.mp (Int.ofNat.inj hproto)
        · exact UInt8.toNat_inj.mp (Int.ofNat.inj htype)
      · cases hicmph
        cases hchdr
    · cases hiph
      cases hihdr
  · rintro ⟨h, hihl, rfl, rfl, rfl⟩
    have hlen := h.fits
    have hfit := h.fitsIcmp
    have hoff : l4Offset p = 14 + 4 * Iphdr.ihl (cell p 14) := rfl
    have hihl' : 5 ≤ Iphdr.ihl (cell p 14) := hihl
    have hword := (word16_eq_htons_ip order _ _).mpr (etherType_eq_ip.mp h.ipv4)
    refine ⟨⟨(bpfHtons order ethPIp).toNat, 14, some 0⟩, ⟨(protocol p).toNat, l4Offset p, some 14⟩,
      ⟨(cell p (l4Offset p)).toNat, l4Offset p + 8, some (l4Offset p)⟩,
      parseEthhdr_ip (by omega) hword, by simp, rfl, ?_, ?_, by rw [h.icmp], rfl, ?_,
      by rw [h.echo], rfl⟩
    · change load16 order 12 p = _
      rw [load16_run order (by omega), ← hword]
    · change parseIphdr 14 p = _
      rw [parseIphdr_run, if_pos ⟨by omega, hihl', by omega⟩]
      rfl
    · change parseFixed 8 0 (l4Offset p) p = _
      rw [parseFixed_run (by omega), if_pos (by omega), Nat.add_zero]

/-- The program agrees with the parsers on every frame but those in which a header
length below five words puts the echo type inside the IPv4 header. -/
theorem icmp_echo_agrees_with_parsers (order : ByteOrder) (csumDiff : CsumDiff) (vlanMaxDepth : ℕ)
    (p : Frame) : AgreesWithParsers order csumDiff vlanMaxDepth p ↔
      ¬ (42 ≤ p.length ∧ etherType p = 0x0800 ∧ protocol p = 1 ∧ ihl p < 5 ∧
        cell p (14 + 4 * ihl p) = 8) := by
  constructor
  · rintro h ⟨hlen, hip, hicmp, hihl, hecho⟩
    have hp : Answered p := ⟨hlen, hip, hicmp, by unfold l4Offset; omega, hecho⟩
    have htx := (xdpIcmpEcho_tx_iff order csumDiff p _).mpr ⟨hp, rfl⟩
    obtain ⟨eth, ip, icmp, hfind⟩ := h.answers.mp ⟨_, htx⟩
    obtain ⟨_, hihl', _⟩ := parsersFind_iff.mp hfind
    omega
  · intro hshort
    have hihl (hp : Answered p) : 5 ≤ ihl p := by
      by_contra! hlt
      exact hshort ⟨hp.fits, hp.ipv4, hp.icmp, hlt, hp.echo⟩
    refine ⟨⟨?_, ?_⟩, ?_, ?_⟩
    · rintro ⟨q, hq⟩
      obtain ⟨hp, _⟩ := (xdpIcmpEcho_tx_iff order csumDiff p q).mp hq
      exact ⟨0, 14, l4Offset p, parsersFind_iff.mpr ⟨hp, hihl hp, rfl, rfl, rfl⟩⟩
    · rintro ⟨eth, ip, icmp, hfind⟩
      obtain ⟨hp, _⟩ := parsersFind_iff.mp hfind
      exact ⟨_, (xdpIcmpEcho_tx_iff order csumDiff p _).mpr ⟨hp, rfl⟩⟩
    · intro q eth ip icmp hq hfind
      obtain ⟨hp, rfl⟩ := (xdpIcmpEcho_tx_iff order csumDiff p q).mp hq
      obtain ⟨_, _, rfl, rfl, rfl⟩ := parsersFind_iff.mp hfind
      exact hp.rewriteHeaders_run
    · intro hnone
      rw [xdpIcmpEcho_run, if_neg]
      exact fun hp ↦ hnone ⟨0, 14, l4Offset p, parsersFind_iff.mpr ⟨hp, hihl hp, rfl, rfl, rfl⟩⟩

def shortHeaderRequest : Frame := overwrite (overwrite icmpRequest 14 [0x44]) 30 [8]

theorem icmp_echo_short_header :
    (∃ q, xdpIcmpEcho .little (plainCsumDiff .little) shortHeaderRequest = .ok (.tx, q)) ∧
    (¬ ∃ eth ip icmp, ParsersFind .little 2 shortHeaderRequest eth ip icmp) ∧
    ¬ AgreesWithParsers .little (plainCsumDiff .little) 2 shortHeaderRequest := by
  have htx : ∃ q, xdpIcmpEcho .little (plainCsumDiff .little) shortHeaderRequest = .ok (.tx, q) :=
    ⟨_, (xdpIcmpEcho_tx_iff .little _ shortHeaderRequest _).mpr ⟨by decide, rfl⟩⟩
  have hnone : ¬ ∃ eth ip icmp, ParsersFind .little 2 shortHeaderRequest eth ip icmp := by
    rintro ⟨eth, ip, icmp, hfind⟩
    obtain ⟨_, hihl, _⟩ := parsersFind_iff.mp hfind
    exact absurd hihl (by decide)
  exact ⟨htx, hnone, fun h ↦ hnone (h.answers.mp htx)⟩

/-- Neither program reads or writes outside the frame, whatever its header length says:
both end without a fault on a frame of the same length. -/
theorem echo_programs_stay_inside (order : ByteOrder) (csumDiff : CsumDiff) (p : Frame) :
    (∃ action q, xdpIcmpEcho order csumDiff p = .ok (action, q) ∧ q.length = p.length) ∧
      ∃ action q, xdpUdpEcho order p = .ok (action, q) ∧ q.length = p.length := by
  rw [xdpIcmpEcho_run, xdpUdpEcho_run]
  constructor
  · by_cases h : Answered p
    · exact ⟨.tx, icmpReply order csumDiff p, by rw [if_pos h], h.length_replyWith _⟩
    · exact ⟨.pass, p, by rw [if_neg h], rfl⟩
  · by_cases hlen : p.length < 42
    · exact ⟨.aborted, p, by rw [if_pos hlen], rfl⟩
    by_cases hproto : cell p 23 ≠ 17
    · exact ⟨.pass, p, by rw [if_neg hlen, if_pos hproto], rfl⟩
    · exact ⟨.tx, _, by rw [if_neg hlen, if_neg hproto], length_udpReply (Nat.not_lt.mp hlen)⟩

-- Without the second test the header length of 15 words would lead outside.
example : rewriteHeaders .little (plainCsumDiff .little) 0 14 74 icmpRequest =
    .error (.outOfBounds 75 1) := rfl

end KernelBypass.Xdp.FastPath
