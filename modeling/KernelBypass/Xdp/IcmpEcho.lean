import KernelBypass.Linux.CsumDiff
import KernelBypass.Xdp.Readdress

namespace KernelBypass.Xdp.IcmpEcho

open Foundation Buffer Access Linux Readdress

def swapSrcDstMac (eth : ℕ) : XdpProgram Unit := do
  let tmp ← load (eth + Ethhdr.hDest) ethAlen
  memcpy (eth + Ethhdr.hDest) (eth + Ethhdr.hSource) ethAlen
  store (eth + Ethhdr.hSource) tmp

def swapSrcDstIpv4 (ip : ℕ) : XdpProgram Unit := do
  let t ← load (ip + Iphdr.saddr) 4
  memcpy (ip + Iphdr.saddr) (ip + Iphdr.daddr) 4
  store (ip + Iphdr.daddr) t

variable (order : ByteOrder) (csumDiff : CsumDiff)

/-- Steps 5 to 7 of `xdp_icmp_echo`, on the headers its steps 2 to 4 have found. -/
def rewriteHeaders (eth ip icmp : ℕ) : XdpProgram Unit := do
  swapSrcDstMac eth
  swapSrcDstIpv4 ip
  store16 order (ip + Iphdr.check) 0
  let code ← load8 (icmp + Icmphdr.code)
  let old16 := bpfHtons order (icmpEcho.toUInt16 <<< 8 ||| code.toUInt16)
  let code ← load8 (icmp + Icmphdr.code)
  let new16 := bpfHtons order (icmpEchoreply.toUInt16 <<< 8 ||| code.toUInt16)
  store8 (icmp + Icmphdr.type) icmpEchoreply
  let checksum ← load16 order (icmp + Icmphdr.checksum)
  let csum : UInt32 :=
    (csumDiff (order.bytes16 old16) (order.bytes16 new16) checksum.toUInt32).toUInt64.toUInt32
  store16 order (icmp + Icmphdr.checksum) csum.toUInt16

def xdpIcmpEcho : XdpProgram XdpAction := do
  let dataEnd ← bufferEnd
  let data := 0
  if data + Ethhdr.size + Iphdr.size + Icmphdr.size > dataEnd then
    return .pass
  let eth := data
  let hProto ← load16 order (eth + Ethhdr.hProto)
  if hProto ≠ bpfHtons order ethPIp then
    return .pass
  let ip := data + Ethhdr.size
  let protocol ← load8 (ip + Iphdr.protocol)
  if protocol ≠ ipprotoIcmp then
    return .pass
  let versionIhl ← load8 ip
  let icmp := ip + Iphdr.ihl versionIhl * 4
  if icmp + Icmphdr.size > dataEnd then
    return .pass
  let type ← load8 (icmp + Icmphdr.type)
  if type ≠ icmpEcho then
    return .pass
  rewriteHeaders order csumDiff eth ip icmp
  return .tx

@[mk_iff]
structure Answered (p : Frame) : Prop where
  fits : 42 ≤ p.length
  ipv4 : etherType p = 0x0800
  icmp : protocol p = 1
  fitsIcmp : l4Offset p + 8 ≤ p.length
  echo : cell p (l4Offset p) = 8

instance (p : Frame) : Decidable (Answered p) := decidable_of_iff' _ (answered_iff p)

def replyWith (v : UInt16) (p : Frame) : Frame :=
  overwrite (overwrite (readdress p) (l4Offset p) [0]) (l4Offset p + 2) (order.bytes16 v)

def updatedChecksum (code : UInt8) (checksum : UInt16) : UInt16 :=
  (csumDiff [8, code] [0, code] checksum.toUInt32).toUInt64.toUInt32.toUInt16

/-- The value stored in the checksum field. The code and the old checksum are read
back from the frame after the addresses have been exchanged. -/
def replyChecksum (p : Frame) : UInt16 :=
  let q := overwrite (readdress p) (l4Offset p) [0]
  updatedChecksum csumDiff (cell (readdress p) (l4Offset p + 1))
    (order.word16 (cell q (l4Offset p + 2)) (cell q (l4Offset p + 3)))

def icmpReply (p : Frame) : Frame := replyWith order (replyChecksum order csumDiff p) p

theorem type_code_bytes (type code : UInt8) :
    order.bytes16 (bpfHtons order (type.toUInt16 <<< 8 ||| code.toUInt16)) = [type, code] := by
  have hv : type.toUInt16 <<< 8 ||| code.toUInt16 = UInt16.ofNat (256 * type.toNat + code.toNat) := by
    have ht := type.toNat_lt
    have hc := code.toNat_lt
    have hshift : type.toNat <<< 8 % 2 ^ 16 = type.toNat <<< 8 := by
      rw [Nat.shiftLeft_eq]
      omega
    apply UInt16.toNat_inj.mp
    change type.toNat <<< 8 % 2 ^ 16 ||| code.toNat = (256 * type.toNat + code.toNat) % 2 ^ 16
    rw [hshift, ← Nat.shiftLeft_add_eq_or_of_lt hc, Nat.shiftLeft_eq]
    omega
  rw [hv, bpfHtons, ByteOrder.word16_eq_toBig16, ByteOrder.bytes16_word16]

section Reply

variable {order} {csumDiff} {p : Frame}

theorem Answered.length_readdress (h : Answered p) : (readdress p).length = p.length :=
  Readdress.length_readdress (by have := h.fits; omega)

theorem Answered.length_retyped (h : Answered p) :
    (overwrite (readdress p) (l4Offset p) [0]).length = p.length := by
  have hfit := h.fitsIcmp
  have hlen := h.length_readdress
  rw [length_overwrite (by simp only [List.length_cons, List.length_nil]; omega), hlen]

theorem Answered.length_replyWith (h : Answered p) (v : UInt16) :
    (replyWith order v p).length = p.length := by
  have hfit := h.fitsIcmp
  have hlen := h.length_retyped
  rw [replyWith, length_overwrite16 order (by omega), hlen]

theorem Answered.cell_retyped (h : Answered p) (j : ℕ) :
    cell (overwrite (readdress p) (l4Offset p) [0]) j =
      if j = l4Offset p then 0 else cell (readdress p) j := by
  have hfit := h.fitsIcmp
  have hlen := h.length_readdress
  rw [cell_overwrite (by rw [List.length_singleton]; omega), List.length_singleton]
  by_cases htype : j = l4Offset p
  · subst j
    rw [if_pos (by omega), if_pos rfl, Nat.sub_self]
    rfl
  · rw [if_neg (by omega), if_neg htype]

theorem Answered.cell_replyWith (h : Answered p) (v : UInt16) (j : ℕ) :
    cell (replyWith order v p) j =
      if l4Offset p + 2 ≤ j ∧ j < l4Offset p + 4 then cell (order.bytes16 v) (j - (l4Offset p + 2))
      else if j = l4Offset p then 0 else cell (readdress p) j := by
  have hfit := h.fitsIcmp
  have hlen := h.length_retyped
  rw [replyWith, cell_overwrite16 order (by omega), h.cell_retyped]

theorem Answered.cell_replyWith_of_header (h : Answered p) (hihl : 5 ≤ ihl p) (v : UInt16) {j : ℕ}
    (hj : j < 34) : cell (replyWith order v p) j = cell (readdress p) j := by
  have hoff : l4Offset p = 14 + 4 * ihl p := rfl
  rw [h.cell_replyWith, if_neg (by omega), if_neg (by omega)]

theorem Answered.slice_replyWith_of_header (h : Answered p) (hihl : 5 ≤ ihl p) (v : UInt16)
    {i j n : ℕ} (hi : i + n ≤ 34) (hj : j + n ≤ 34)
    (hs : ∀ k < n, ¬ (i + k = 24 ∨ i + k = 25) ∧ addressSource (i + k) = j + k) :
    slice (replyWith order v p) i n = slice p j n := by
  have hfit := h.fits
  have hlen : (replyWith order v p).length = p.length := h.length_replyWith v
  refine slice_congr (by omega) (by omega) fun k hk ↦ ?_
  obtain ⟨hkept, hsource⟩ := hs k hk
  rw [h.cell_replyWith_of_header hihl v (by omega), cell_readdress (by omega), if_neg hkept, hsource]

/-- A header length of zero would make the version byte the ICMP type; but then its
low half is not zero. -/
theorem Answered.ihl_pos (h : Answered p) : 0 < ihl p := by
  by_contra! hz
  have hecho := h.echo
  have hoff : l4Offset p = 14 := by unfold l4Offset; omega
  rw [hoff] at hecho
  rw [ihl, hecho] at hz
  exact absurd hz (by decide)

/-- No reply moves the ICMP header, also where it overlaps the IPv4 header. -/
theorem Answered.l4Offset_replyWith (h : Answered p) (v : UInt16) :
    l4Offset (replyWith order v p) = l4Offset p := by
  have hfit := h.fits
  have hpos := h.ihl_pos
  have hoff : l4Offset p = 14 + 4 * ihl p := rfl
  have hcell : cell (replyWith order v p) 14 = cell p 14 := by
    rw [h.cell_replyWith, if_neg (by omega), if_neg (by omega),
      cell_readdress_of_fixed (by omega) (by omega)]
  rw [l4Offset, ihl, hcell]
  rfl

theorem Answered.ihl_replyWith (h : Answered p) (v : UInt16) :
    ihl (replyWith order v p) = ihl p := by
  have hoff : l4Offset (replyWith order v p) = l4Offset p := h.l4Offset_replyWith v
  unfold l4Offset at hoff
  omega

theorem Answered.rewriteHeaders_run (h : Answered p) :
    rewriteHeaders order csumDiff 0 14 (l4Offset p) p = .ok ((), icmpReply order csumDiff p) := by
  have hlen := h.fits
  have hfit := h.fitsIcmp
  have hmac := length_exchange_mac (p := p) (by omega)
  have hip := length_exchange_ip (p := p) (by omega)
  have haddr := h.length_readdress
  have htype := h.length_retyped
  have hzero := order.bytes16_zero
  have hread : overwrite (exchange (exchange p 0 6 6) 26 30 4) 24 [0, 0] = readdress p := rfl
  simp only [rewriteHeaders, swapSrcDstMac, swapSrcDstIpv4, Ethhdr.hDest, Ethhdr.hSource, ethAlen,
    Iphdr.saddr, Iphdr.daddr, Iphdr.check, Icmphdr.type, Icmphdr.code, Icmphdr.checksum,
    icmpEchoreply, type_code_bytes, bind_assoc, Nat.reduceAdd, Nat.add_zero]
  rw [exchange_run (by omega) (by omega), exchange_run (by omega) (by omega),
    bind_run (store16_run order (by omega) 0), hzero, hread, bind_run (load8_run (by omega)),
    bind_run (load8_run (by omega)), bind_run (store8_run (by omega) _),
    bind_run (load16_run order (by omega)), store16_run order (by omega)]
  rfl

end Reply

theorem xdpIcmpEcho_run (p : Frame) : xdpIcmpEcho order csumDiff p =
    .ok (if Answered p then (.tx, icmpReply order csumDiff p) else (.pass, p)) := by
  simp only [xdpIcmpEcho, Ethhdr.size, Iphdr.size, Icmphdr.size, Ethhdr.hProto, Iphdr.protocol,
    Icmphdr.type, ipprotoIcmp, icmpEcho, Nat.reduceAdd, Nat.add_zero, gt_iff_lt]
  rw [bind_run (bufferEnd_run p)]
  by_cases hlen : p.length < 42
  · rw [if_pos hlen, if_neg (fun h ↦ by have := h.fits; omega), pure_run]
  rw [if_neg hlen, bind_run (load16_run order (by omega))]
  by_cases hip : order.word16 (cell p 12) (cell p 13) ≠ bpfHtons order ethPIp
  · rw [if_pos hip, if_neg, pure_run]
    exact fun h ↦ hip ((word16_eq_htons_ip order _ _).mpr (etherType_eq_ip.mp h.ipv4))
  rw [if_neg hip, bind_run (load8_run (by omega))]
  by_cases hicmp : cell p 23 ≠ 1
  · rw [if_pos hicmp, if_neg (fun h ↦ hicmp h.icmp), pure_run]
  rw [if_neg hicmp, bind_run (load8_run (by omega))]
  have hoff : 14 + Iphdr.ihl (cell p 14) * 4 = l4Offset p := by
    rw [l4Offset, ihl, Nat.mul_comm]
  rw [hoff]
  by_cases hfit : p.length < l4Offset p + 8
  · rw [if_pos hfit, if_neg (fun h ↦ by have := h.fitsIcmp; omega), pure_run]
  rw [if_neg hfit, bind_run (load8_run (by omega))]
  by_cases hecho : cell p (l4Offset p) ≠ 8
  · rw [if_pos hecho, if_neg (fun h ↦ hecho h.echo), pure_run]
  have h : Answered p := ⟨by omega,
    etherType_eq_ip.mpr ((word16_eq_htons_ip order _ _).mp (not_not.mp hip)),
    not_not.mp hicmp, by omega, not_not.mp hecho⟩
  rw [if_neg hecho, if_pos h, bind_run h.rewriteHeaders_run, pure_run]

theorem xdpIcmpEcho_tx_iff (p q : Frame) : xdpIcmpEcho order csumDiff p = .ok (.tx, q) ↔
    Answered p ∧ icmpReply order csumDiff p = q := by
  rw [xdpIcmpEcho_run]
  split_ifs with h
  · simp [h]
  · simp [h]

/-- The headers of an answer: both pairs of addresses have changed places, the header
checksum is cleared and the type is that of a reply. -/
structure HeadersAnswered (p q : Frame) : Prop where
  dest : slice q 0 6 = slice p 6 6
  source : slice q 6 6 = slice p 0 6
  saddr : slice q 26 4 = slice p 30 4
  daddr : slice q 30 4 = slice p 26 4
  check : slice q 24 2 = [0, 0]
  type : cell q (l4Offset p) = 0

variable {order} in
theorem Answered.headersAnswered {p : Frame} (h : Answered p) (hihl : 5 ≤ ihl p) (v : UInt16) :
    HeadersAnswered p (replyWith order v p) where
  dest := h.slice_replyWith_of_header hihl v (by omega) (by omega) (by grind [addressSource, partner])
  source := h.slice_replyWith_of_header hihl v (by omega) (by omega) (by grind [addressSource, partner])
  saddr := h.slice_replyWith_of_header hihl v (by omega) (by omega) (by grind [addressSource, partner])
  daddr := h.slice_replyWith_of_header hihl v (by omega) (by omega) (by grind [addressSource, partner])
  check := by
    have hfit := h.fits
    have hlen : (replyWith order v p).length = p.length := h.length_replyWith v
    rw [slice_succ (by omega), slice_succ (by omega), slice_zero,
      h.cell_replyWith_of_header hihl v (by omega), h.cell_replyWith_of_header hihl v (by omega),
      cell_readdress (by omega), cell_readdress (by omega), if_pos (by omega), if_pos (by omega)]
  type := by rw [h.cell_replyWith, if_neg (by omega), if_pos rfl]

theorem icmp_echo_effect (p : Frame) :
    ∃ verdict q, xdpIcmpEcho order csumDiff p = .ok (verdict, q) ∧
      (verdict = .pass ∨ verdict = .tx) ∧ (verdict = .pass → q = p) ∧
      (verdict = .tx → q.length = p.length ∧
        (∀ j, ¬ (j < 12 ∨ 24 ≤ j ∧ j < 34) → j ≠ l4Offset p → j ≠ l4Offset p + 2 →
          j ≠ l4Offset p + 3 → cell q j = cell p j) ∧
        (5 ≤ ihl p → HeadersAnswered p q)) := by
  by_cases h : Answered p
  · have hfit := h.fits
    refine ⟨.tx, icmpReply order csumDiff p, by rw [xdpIcmpEcho_run, if_pos h], Or.inr rfl,
      fun hpass ↦ absurd hpass (by decide), fun _ ↦ ⟨h.length_replyWith _, ?_, ?_⟩⟩
    · intro j hhead htype hsum hsum'
      rw [icmpReply, h.cell_replyWith, if_neg (by omega), if_neg htype,
        cell_readdress_of_fixed (by omega) (by omega)]
    · intro hihl
      exact h.headersAnswered hihl _
  · exact ⟨.pass, p, by rw [xdpIcmpEcho_run, if_neg h], Or.inl rfl, fun _ ↦ rfl,
      fun htx ↦ absurd htx (by decide)⟩

/-- An echo request of 10.0.0.2 to 10.0.0.1 that carries no data. -/
def icmpRequest : Frame :=
  [2, 0, 0, 0, 0, 1, 2, 0, 0, 0, 0, 2, 8, 0,
    69, 0, 0, 28, 0, 1, 0, 0, 64, 1, 102, 222, 10, 0, 0, 2, 10, 0, 0, 1,
    8, 0, 247, 253, 0, 1, 0, 1]

end KernelBypass.Xdp.IcmpEcho
