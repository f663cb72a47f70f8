import KernelBypass.Linux.Ipv4

namespace KernelBypass.Common.ParsingHelpers

open Foundation Buffer Access Linux

/-- What a parser leaves to its caller: the return value, the cursor `nh->pos` and
the header pointer, if the call has assigned it. -/
structure Parsed where
  ret : ℤ
  pos : ℕ
  hdr : Option ℕ
  deriving DecidableEq, Repr

def Parsed.failed (nh : ℕ) : Parsed := ⟨-1, nh, none⟩

abbrev vlanVidMask : UInt16 := 0x0fff

namespace IcmphdrCommon

abbrev type : ℕ := 0
abbrev size : ℕ := 4

end IcmphdrCommon

section Vlan

variable (order : ByteOrder)

def protoIsVlan (hProto : UInt16) : Bool :=
  hProto == bpfHtons order ethP8021Q || hProto == bpfHtons order ethP8021AD

/-- The array of `struct collect_vlans`, of which `NULL` is `none`. -/
abbrev CollectVlans := Option (List UInt16)

def collectId (vlans : CollectVlans) (i vlh : ℕ) : XdpProgram CollectVlans :=
  match vlans with
  | none => return none
  | some ids => do
    let tci ← load16 order (vlh + VlanHdr.hVlanTCI)
    if i < ids.length then
      return some (ids.set i (bpfNtohs order tci &&& vlanVidMask))
    fault i 1

/-- The loop of `parse_ethhdr_vlan`, with `n` iterations left at index `i`. -/
def vlanLoop : ℕ → ℕ → UInt16 → ℕ → CollectVlans → XdpProgram (UInt16 × ℕ × CollectVlans)
  | 0, _, hProto, vlh, vlans => return (hProto, vlh, vlans)
  | n + 1, i, hProto, vlh, vlans => do
    if !protoIsVlan order hProto then
      return (hProto, vlh, vlans)
    let dataEnd ← bufferEnd
    if vlh + VlanHdr.size > dataEnd then
      return (hProto, vlh, vlans)
    let hProto ← load16 order (vlh + VlanHdr.hVlanEncapsulatedProto)
    let vlans ← collectId order vlans i vlh
    vlanLoop n (i + 1) hProto (vlh + VlanHdr.size) vlans

/-- `vlanMaxDepth` is the macro `VLAN_MAX_DEPTH`, which users may redefine. -/
def parseEthhdrVlan (vlanMaxDepth nh : ℕ) (vlans : CollectVlans) :
    XdpProgram (Parsed × CollectVlans) := do
  let eth := nh
  let dataEnd ← bufferEnd
  if nh + Ethhdr.size > dataEnd then
    return (.failed nh, vlans)
  let hProto ← load16 order (eth + Ethhdr.hProto)
  let exit ← vlanLoop order vlanMaxDepth 0 hProto (nh + Ethhdr.size) vlans
  return (⟨exit.1.toNat, exit.2.1, some eth⟩, exit.2.2)

def parseEthhdr (vlanMaxDepth nh : ℕ) : XdpProgram Parsed := do
  let parsed ← parseEthhdrVlan order vlanMaxDepth nh none
  return parsed.1

end Vlan

def parseFixed (size field nh : ℕ) : XdpProgram Parsed := do
  let dataEnd ← bufferEnd
  if nh + size > dataEnd then
    return .failed nh
  let type ← load8 (nh + field)
  return ⟨type.toNat, nh + size, some nh⟩

def parseIp6hdr (nh : ℕ) : XdpProgram Parsed := parseFixed Ipv6hdr.size Ipv6hdr.nexthdr nh

def parseIcmp6hdr (nh : ℕ) : XdpProgram Parsed := parseFixed Icmp6hdr.size Icmp6hdr.icmp6Type nh

def parseIcmphdr (nh : ℕ) : XdpProgram Parsed := parseFixed Icmphdr.size Icmphdr.type nh

def parseIcmphdrCommon (nh : ℕ) : XdpProgram Parsed :=
  parseFixed IcmphdrCommon.size IcmphdrCommon.type nh

def parseIphdr (nh : ℕ) : XdpProgram Parsed := do
  let iph := nh
  let dataEnd ← bufferEnd
  if iph + Iphdr.size > dataEnd then
    return .failed nh
  let versionIhl ← load8 iph
  let hdrsize := Iphdr.ihl versionIhl * 4
  if hdrsize < Iphdr.size then
    return .failed nh
  if nh + hdrsize > dataEnd then
    return .failed nh
  let protocol ← load8 (iph + Iphdr.protocol)
  return ⟨protocol.toNat, nh + hdrsize, some iph⟩

/-- The cursor and the pointer are assigned before the length is looked at. -/
def parseUdphdr (order : ByteOrder) (nh : ℕ) : XdpProgram Parsed := do
  let h := nh
  let dataEnd ← bufferEnd
  if h + Udphdr.size > dataEnd then
    return .failed nh
  let len ← load16 order (h + Udphdr.len)
  let len : ℤ := (bpfNtohs order len).toNat - Udphdr.size
  if len < 0 then
    return ⟨-1, h + Udphdr.size, some h⟩
  return ⟨len, h + Udphdr.size, some h⟩

def parseTcphdr (nh : ℕ) : XdpProgram Parsed := do
  let h := nh
  let dataEnd ← bufferEnd
  if h + Tcphdr.size > dataEnd then
    return .failed nh
  let doff ← load8 (h + Tcphdr.doffByte)
  let len := Tcphdr.doff doff * 4
  if len < Tcphdr.size then
    return .failed nh
  if nh + len > dataEnd then
    return .failed nh
  return ⟨len, nh + len, some h⟩

section Runs

variable {order : ByteOrder} {p : Frame}

variable (order) in
def wordAt (p : Frame) (i : ℕ) : UInt16 := order.word16 (cell p i) (cell p (i + 1))

theorem load16_wordAt {i : ℕ} (h : i + 2 ≤ p.length) :
    load16 order i p = .ok (wordAt order p i, p) := load16_run order h

variable (order) in
def vlanId (p : Frame) (i : ℕ) : UInt16 := bpfNtohs order (wordAt order p i) &&& vlanVidMask

variable (order) in
def TagAt (p : Frame) (t : ℕ) : Prop :=
  protoIsVlan order (wordAt order p t) = true ∧ t + 6 ≤ p.length

instance (t : ℕ) : Decidable (TagAt order p t) := inferInstanceAs (Decidable (_ ∧ _))

variable (order) in
/-- The ids of the tags that the loop skips in at most `n` iterations, the first of
which has its type field at `t`. -/
def skippedIds (p : Frame) : ℕ → ℕ → List UInt16
  | 0, _ => []
  | n + 1, t =>
    if TagAt order p t then
      vlanId order p (t + 2) :: skippedIds p n (t + 4)
    else []

theorem length_skippedIds_le (n t : ℕ) : (skippedIds order p n t).length ≤ n := by
  induction n generalizing t with
  | zero => rfl
  | succ n ih =>
    rw [skippedIds]
    split_ifs
    · exact Nat.succ_le_succ (ih (t + 4))
    · exact Nat.zero_le _

theorem skippedIds_inside (order : ByteOrder) {n t : ℕ} (h : t + 2 ≤ p.length) :
    t + 2 + 4 * (skippedIds order p n t).length ≤ p.length := by
  induction n generalizing t with
  | zero => simpa [skippedIds] using h
  | succ n ih =>
    rw [skippedIds]
    split_ifs with htag
    · have hin := htag.2
      have hrest := ih (t := t + 4) (by omega)
      rw [List.length_cons]
      omega
    · simpa using h

theorem skippedIds_of_not_vlan {n t : ℕ} (h : protoIsVlan order (wordAt order p t) = false) :
    skippedIds order p n t = [] := by
  cases n with
  | zero => rfl
  | succ n => rw [skippedIds, if_neg fun htag ↦ by simp [htag.1] at h]

theorem collectId_run {vlans : CollectVlans} {i vlh : ℕ} (hi : ∀ ids ∈ vlans, i < ids.length)
    (h : vlh + 4 ≤ p.length) : collectId order vlans i vlh p =
      .ok (vlans.map (·.set i (vlanId order p vlh)), p) := by
  cases vlans with
  | none => rfl
  | some ids =>
    simp only [collectId, VlanHdr.hVlanTCI, Nat.add_zero]
    rw [bind_run (load16_run order (by omega)), if_pos (hi ids rfl), pure_run]
    rfl

theorem vlanLoop_run {n i t : ℕ} {vlans : CollectVlans} (hi : ∀ ids ∈ vlans, i + n ≤ ids.length) :
    vlanLoop order n i (wordAt order p t) (t + 2) vlans p = .ok
      ((wordAt order p (t + 4 * (skippedIds order p n t).length),
        t + 2 + 4 * (skippedIds order p n t).length,
        vlans.map (overwrite · i (skippedIds order p n t))), p) := by
  induction n generalizing i t vlans with
  | zero => simp [vlanLoop, skippedIds, pure_run]
  | succ n ih =>
    rw [vlanLoop, skippedIds]
    by_cases hvlan : protoIsVlan order (wordAt order p t) = true
    swap
    · have hskip : ¬ TagAt order p t := fun h ↦ hvlan h.1
      rw [if_neg hskip, if_pos (by simpa using hvlan), pure_run]
      simp
    rw [if_neg (by simpa using hvlan), bind_run (bufferEnd_run p)]
    by_cases hin : t + 6 ≤ p.length
    swap
    · have hskip : ¬ TagAt order p t := fun h ↦ hin h.2
      rw [if_neg hskip, if_pos (by simp only [VlanHdr.size]; omega), pure_run]
      simp
    have hlt : ∀ ids ∈ vlans, i < ids.length := fun ids h ↦ by
      have := hi ids h
      omega
    have hcollect : collectId order vlans i (t + 2) p = _ := collectId_run hlt (by omega)
    have hroom : ∀ ids' ∈ vlans.map (·.set i (vlanId order p (t + 2))),
        i + 1 + n ≤ ids'.length := by
      intro ids' h
      obtain ⟨ids, hids, rfl⟩ := Option.mem_map.mp h
      have := hi ids hids
      rw [List.length_set]
      omega
    have hwrite : (vlans.map (·.set i (vlanId order p (t + 2)))).map
        (overwrite · (i + 1) (skippedIds order p n (t + 4))) =
        vlans.map (overwrite · i (vlanId order p (t + 2) ::
          skippedIds order p n (t + 4))) := by
      rw [Option.map_map]
      exact Option.map_congr fun ids h ↦ overwrite_set (hlt ids h) _ _
    rw [if_neg (by simp only [VlanHdr.size]; omega), if_pos ⟨hvlan, hin⟩,
      bind_run (load16_run order (by simp only [VlanHdr.hVlanEncapsulatedProto]; omega)),
      bind_run hcollect]
    have hnext := ih (t := t + 4) hroom
    rw [hwrite, show t + 4 + 2 = t + 2 + 4 by omega] at hnext
    refine hnext.trans ?_
    rw [List.length_cons, Nat.mul_succ, Nat.add_right_comm t 4, Nat.add_right_comm (t + 2) 4]
    rfl

theorem parseEthhdrVlan_run {vlanMaxDepth nh : ℕ} {vlans : CollectVlans}
    (hv : ∀ ids ∈ vlans, vlanMaxDepth ≤ ids.length) :
    parseEthhdrVlan order vlanMaxDepth nh vlans p = .ok
      (if nh + 14 ≤ p.length then
          (⟨(wordAt order p (nh + 12 + 4 * (skippedIds order p vlanMaxDepth (nh + 12)).length)).toNat,
            nh + 14 + 4 * (skippedIds order p vlanMaxDepth (nh + 12)).length, some nh⟩,
            vlans.map (overwrite · 0 (skippedIds order p vlanMaxDepth (nh + 12))))
        else (.failed nh, vlans), p) := by
  rw [parseEthhdrVlan, bind_run (bufferEnd_run p)]
  by_cases h : nh + 14 ≤ p.length
  · have hloop : vlanLoop order vlanMaxDepth 0 (wordAt order p (nh + 12)) (nh + 12 + 2) vlans p = _ :=
      vlanLoop_run (by simpa using hv)
    rw [if_neg (Nat.not_lt.mpr h), if_pos h, bind_run (load16_run order (by omega))]
    exact (bind_run hloop).trans (pure_run _ _)
  · rw [if_pos (show nh + 14 > p.length by omega), if_neg h, pure_run]

theorem parseEthhdr_run (vlanMaxDepth nh : ℕ) :
    parseEthhdr order vlanMaxDepth nh p = .ok
      (if nh + 14 ≤ p.length then
          ⟨(wordAt order p (nh + 12 + 4 * (skippedIds order p vlanMaxDepth (nh + 12)).length)).toNat,
            nh + 14 + 4 * (skippedIds order p vlanMaxDepth (nh + 12)).length, some nh⟩
        else .failed nh, p) := by
  rw [parseEthhdr, bind_run (parseEthhdrVlan_run (by simp)), pure_run]
  split_ifs <;> rfl

theorem not_vlan_of_ip : protoIsVlan order (bpfHtons order ethPIp) = false := by
  cases order <;> decide

theorem parseEthhdr_short {vlanMaxDepth nh : ℕ} (h : p.length < nh + 14) :
    parseEthhdr order vlanMaxDepth nh p = .ok (.failed nh, p) := by
  rw [parseEthhdr_run, if_neg (by omega)]

theorem parseEthhdr_hdr (order : ByteOrder) (vlanMaxDepth nh : ℕ) (h : nh + 14 ≤ p.length) :
    ∃ ret pos, parseEthhdr order vlanMaxDepth nh p = .ok (⟨ret, pos, some nh⟩, p) :=
  ⟨_, _, by rw [parseEthhdr_run, if_pos h]⟩

theorem parseEthhdr_ip {vlanMaxDepth nh : ℕ} (h : nh + 14 ≤ p.length)
    (hip : order.word16 (cell p (nh + 12)) (cell p (nh + 13)) = bpfHtons order ethPIp) :
    parseEthhdr order vlanMaxDepth nh p =
      .ok (⟨(bpfHtons order ethPIp).toNat, nh + 14, some nh⟩, p) := by
  have htype : wordAt order p (nh + 12) = bpfHtons order ethPIp := hip
  have hnone : skippedIds order p vlanMaxDepth (nh + 12) = [] := skippedIds_of_not_vlan (by
    rw [htype, not_vlan_of_ip])
  rw [parseEthhdr_run, if_pos h, hnone, List.length_nil, Nat.mul_zero, Nat.add_zero, Nat.add_zero,
    htype]

theorem parseFixed_run {size field : ℕ} (hf : field < size) (nh : ℕ) :
    parseFixed size field nh p = .ok
      (if nh + size ≤ p.length then ⟨(cell p (nh + field)).toNat, nh + size, some nh⟩
        else .failed nh, p) := by
  rw [parseFixed, bind_run (bufferEnd_run p)]
  by_cases h : nh + size > p.length
  · rw [if_pos h, if_neg (by omega), pure_run]
  · rw [if_neg h, if_pos (by omega), bind_run (load8_run (by omega)), pure_run]

theorem parseIphdr_run (nh : ℕ) : parseIphdr nh p = .ok
    (if nh + 20 ≤ p.length ∧ 5 ≤ Iphdr.ihl (cell p nh) ∧ nh + 4 * Iphdr.ihl (cell p nh) ≤ p.length
      then ⟨(cell p (nh + 9)).toNat, nh + 4 * Iphdr.ihl (cell p nh), some nh⟩
      else .failed nh, p) := by
  simp only [parseIphdr, Iphdr.size, Iphdr.protocol]
  rw [bind_run (bufferEnd_run p)]
  by_cases hfix : nh + 20 > p.length
  · rw [if_pos hfix, if_neg (by omega), pure_run]
  rw [if_neg hfix, bind_run (load8_run (by omega))]
  by_cases hsize : Iphdr.ihl (cell p nh) * 4 < 20
  · rw [if_pos hsize, if_neg (by omega), pure_run]
  rw [if_neg hsize]
  by_cases hin : nh + Iphdr.ihl (cell p nh) * 4 > p.length
  · rw [if_pos hin, if_neg (by omega), pure_run]
  rw [if_neg hin, bind_run (load8_run (by omega)), if_pos (by omega), pure_run,
    Nat.mul_comm (Iphdr.ihl (cell p nh)) 4]

theorem parseUdphdr_run (nh : ℕ) : parseUdphdr order nh p = .ok
    (if nh + 8 ≤ p.length then
        ⟨if netWord p (nh + 4) < 8 then -1 else netWord p (nh + 4) - 8, nh + 8, some nh⟩
      else .failed nh, p) := by
  simp only [parseUdphdr, Udphdr.size, Udphdr.len]
  rw [bind_run (bufferEnd_run p)]
  by_cases hfix : nh + 8 > p.length
  · rw [if_pos hfix, if_neg (by omega), pure_run]
  have hlen : (bpfNtohs order (order.word16 (cell p (nh + 4)) (cell p (nh + 4 + 1)))).toNat =
      netWord p (nh + 4) := order.toNat_toBig16_word16 _ _
  have hin : nh + 8 ≤ p.length := by omega
  rw [if_neg hfix, bind_run (load16_run order (by omega)), hlen, if_pos hin]
  by_cases hshort : netWord p (nh + 4) < 8
  · rw [if_pos (by omega), if_pos hshort, pure_run]
  · rw [if_neg (by omega), if_neg hshort, pure_run]
    rfl

theorem parseTcphdr_run (nh : ℕ) : parseTcphdr nh p = .ok
    (if nh + 20 ≤ p.length ∧ 5 ≤ Tcphdr.doff (cell p (nh + 12)) ∧
        nh + 4 * Tcphdr.doff (cell p (nh + 12)) ≤ p.length
      then ⟨(4 * Tcphdr.doff (cell p (nh + 12)) : ℕ), nh + 4 * Tcphdr.doff (cell p (nh + 12)), some nh⟩
      else .failed nh, p) := by
  simp only [parseTcphdr, Tcphdr.size, Tcphdr.doffByte]
  rw [bind_run (bufferEnd_run p)]
  by_cases hfix : nh + 20 > p.length
  · rw [if_pos hfix, if_neg (by omega), pure_run]
  rw [if_neg hfix, bind_run (load8_run (by omega)), Nat.mul_comm (Tcphdr.doff (cell p (nh + 12))) 4]
  by_cases hsize : 4 * Tcphdr.doff (cell p (nh + 12)) < 20
  · rw [if_pos hsize, if_neg (by omega), pure_run]
  rw [if_neg hsize]
  by_cases hin : nh + 4 * Tcphdr.doff (cell p (nh + 12)) > p.length
  · rw [if_pos hin, if_neg (by omega), pure_run]
  · rw [if_neg hin, if_pos (by omega), pure_run]

end Runs

end KernelBypass.Common.ParsingHelpers
