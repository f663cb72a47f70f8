import KernelBypass.Common.ParsingHelpers

namespace KernelBypass.Common.RewriteHelpers

open Foundation Buffer Access Linux ParsingHelpers

/-- The kernel helper `bpf_xdp_adjust_head`, as it answers one call. -/
abbrev AdjustHead := ℤ → XdpProgram ℤ

/-- The start of the packet has moved by `delta`: bytes in front are cut off, or bytes
of any content are added in front. -/
inductive Moved : ℤ → Frame → Frame → Prop
  | shrink {n : ℕ} {p : Frame} (h : n ≤ p.length) : Moved n p (p.drop n)
  | grow (head p : Frame) : Moved (-head.length) p (head ++ p)

/-- The helper returns zero and has moved the start, or an error and has changed
nothing. -/
def AdjustHeadContract (adjustHead : AdjustHead) : Prop :=
  ∀ delta p, ∃ ret q, adjustHead delta p = .ok (ret, q) ∧
    (ret = 0 ∧ Moved delta p q ∨ ret ≠ 0 ∧ q = p)

def Grants (adjustHead : AdjustHead) (delta : ℤ) (p : Frame) : Prop :=
  ∃ q, adjustHead delta p = .ok (0, q)

/-- A helper that takes the bytes it adds from the end of some headroom, and leaves no
less than an Ethernet header. -/
def plainAdjustHead (headroom : Frame) : AdjustHead := fun delta p ↦
  if delta < 0 then
    if delta.natAbs ≤ headroom.length then
      .ok (0, headroom.drop (headroom.length - delta.natAbs) ++ p)
    else .ok (-22, p)
  else if delta.natAbs + Ethhdr.size ≤ p.length then .ok (0, p.drop delta.natAbs)
  else .ok (-22, p)

theorem plainAdjustHead_contract (headroom : Frame) :
    AdjustHeadContract (plainAdjustHead headroom) := by
  intro delta p
  unfold plainAdjustHead
  split_ifs with hneg hroom hfit
  · refine ⟨0, _, rfl, Or.inl ⟨rfl, ?_⟩⟩
    have hlen : (headroom.drop (headroom.length - delta.natAbs)).length = delta.natAbs := by
      rw [List.length_drop]
      omega
    have hmoved := Moved.grow (headroom.drop (headroom.length - delta.natAbs)) p
    rwa [hlen, show -(delta.natAbs : ℤ) = delta by omega] at hmoved
  · exact ⟨-22, p, rfl, Or.inr ⟨by decide, rfl⟩⟩
  · refine ⟨0, _, rfl, Or.inl ⟨rfl, ?_⟩⟩
    have hmoved := Moved.shrink (show delta.natAbs ≤ p.length by omega)
    rwa [show (delta.natAbs : ℤ) = delta by omega] at hmoved
  · exact ⟨-22, p, rfl, Or.inr ⟨by decide, rfl⟩⟩

variable (order : ByteOrder) (adjustHead : AdjustHead)

def vlanTagPop (eth : ℕ) : XdpProgram ℤ := do
  let dataEnd ← bufferEnd
  let hProto ← load16 order (eth + Ethhdr.hProto)
  if !protoIsVlan order hProto then
    return -1
  let vlh := eth + Ethhdr.size
  if vlh + VlanHdr.size > dataEnd then
    return -1
  let tci ← load16 order (vlh + VlanHdr.hVlanTCI)
  let vlid : ℤ := (bpfNtohs order tci).toNat
  let hProto ← load16 order (vlh + VlanHdr.hVlanEncapsulatedProto)
  let ethCpy ← load eth Ethhdr.size
  let err ← adjustHead VlanHdr.size
  if err ≠ 0 then
    return -1
  let eth := 0
  let dataEnd ← bufferEnd
  if eth + Ethhdr.size > dataEnd then
    return -1
  store eth ethCpy
  store16 order (eth + Ethhdr.hProto) hProto
  return vlid

def vlanTagPush (eth : ℕ) (vlid : Int32) : XdpProgram ℤ := do
  let ethCpy ← load eth Ethhdr.size
  let err ← adjustHead (0 - VlanHdr.size)
  if err ≠ 0 then
    return -1
  let dataEnd ← bufferEnd
  let eth := 0
  if eth + Ethhdr.size > dataEnd then
    return -1
  store eth ethCpy
  let vlh := eth + Ethhdr.size
  if vlh + VlanHdr.size > dataEnd then
    return -1
  store16 order (vlh + VlanHdr.hVlanTCI) (bpfHtons order vlid.toUInt32.toUInt16)
  let hProto ← load16 order (eth + Ethhdr.hProto)
  store16 order (vlh + VlanHdr.hVlanEncapsulatedProto) hProto
  store16 order (eth + Ethhdr.hProto) (bpfHtons order ethP8021Q)
  return 0

def swapSrcDstMac (eth : ℕ) : XdpProgram Unit := do
  let hTmp ← load (eth + Ethhdr.hSource) ethAlen
  memcpy (eth + Ethhdr.hSource) (eth + Ethhdr.hDest) ethAlen
  store (eth + Ethhdr.hDest) hTmp

def swapSrcDstIpv6 (ipv6 : ℕ) : XdpProgram Unit := do
  let tmp ← load (ipv6 + Ipv6hdr.saddr) 16
  memcpy (ipv6 + Ipv6hdr.saddr) (ipv6 + Ipv6hdr.daddr) 16
  store (ipv6 + Ipv6hdr.daddr) tmp

def swapSrcDstIpv4 (iphdr : ℕ) : XdpProgram Unit := do
  let tmp ← load (iphdr + Iphdr.saddr) 4
  memcpy (iphdr + Iphdr.saddr) (iphdr + Iphdr.daddr) 4
  store (iphdr + Iphdr.daddr) tmp

def popped (p : Frame) : Frame := p.take 12 ++ p.drop 16

def pushed (tci : UInt16) (p : Frame) : Frame :=
  p.take 12 ++ (ByteOrder.big.bytes16 ethP8021Q ++ (ByteOrder.big.bytes16 tci ++ p.drop 12))

section Runs

variable {order adjustHead} {p q : Frame}

theorem length_popped (h : 16 ≤ p.length) : (popped p).length + 4 = p.length := by
  rw [popped, List.length_append, List.length_take, List.length_drop]
  omega

theorem length_pushed (h : 12 ≤ p.length) (tci : UInt16) : (pushed tci p).length = p.length + 4 := by
  simp only [pushed, List.length_append, List.length_take, List.length_drop,
    ByteOrder.length_bytes16]
  omega

theorem Moved.eq_drop {n : ℕ} (h : Moved n p q) : q = p.drop n := by
  generalize hd : (n : ℤ) = delta at h
  cases h with
  | shrink _ => rw [Int.natCast_inj.mp hd]
  | grow head =>
    obtain rfl : head = [] := List.length_eq_zero_iff.mp (by omega)
    obtain rfl : n = 0 := by simpa using hd
    rfl

theorem Moved.eq_append {n : ℕ} (h : Moved (-n) p q) : ∃ head, head.length = n ∧ q = head ++ p := by
  generalize hd : -(n : ℤ) = delta at h
  cases h with
  | @shrink m _ _ =>
    obtain ⟨rfl, rfl⟩ : n = 0 ∧ m = 0 := by omega
    exact ⟨[], rfl, rfl⟩
  | grow head => exact ⟨head, by omega, rfl⟩

theorem bytes16_wordAt (i : ℕ) : order.bytes16 (wordAt order p i) = [cell p i, cell p (i + 1)] :=
  order.bytes16_word16 _ _

theorem cell_pair {a b : UInt8} {i j : ℕ} (h : j = i ∨ j = i + 1) :
    cell [a, b] (j - i) = if j = i then a else b := by
  obtain rfl | rfl := h
  · rw [Nat.sub_self, if_pos rfl]
    rfl
  · rw [Nat.add_sub_cancel_left, if_neg (by omega)]
    rfl

/-- The header copied over the shortened packet, then the inner type. -/
theorem overwrite_popped (h : 18 ≤ p.length) :
    overwrite (overwrite (p.drop 4) 0 (slice p 0 14)) 12 (order.bytes16 (wordAt order p 16)) =
      popped p := by
  have hcopy : (slice p 0 14).length = 14 := length_slice (by omega)
  have hdrop : (p.drop 4).length = p.length - 4 := List.length_drop
  have hlen : (overwrite (p.drop 4) 0 (slice p 0 14)).length = p.length - 4 := by
    rw [length_overwrite (by omega), hdrop]
  have htake : (p.take 12).length = 12 := by
    rw [List.length_take]
    omega
  apply ext_cell
  · have hpopped := length_popped (p := p) (by omega)
    rw [length_overwrite16 order (by omega), hlen]
    omega
  · intro j _
    rw [cell_overwrite16 order (by omega), bytes16_wordAt, cell_overwrite (by omega), hcopy, popped,
      cell_append, htake, cell_drop, cell_drop]
    by_cases hmac : j < 12
    · rw [if_neg (by omega), if_pos (by omega), if_pos hmac, cell_slice (by omega), cell_take hmac]
      congr 1
      omega
    · by_cases htype : j < 14
      · rw [if_pos (by omega), if_neg hmac, cell_pair (by omega)]
        obtain rfl | rfl : j = 12 ∨ j = 13 := by omega
        · rfl
        · rfl
      · rw [if_neg (by omega), if_neg (by omega), if_neg hmac]
        congr 1
        omega

section Grown

def copied (head p : Frame) : Frame := overwrite (head ++ p) 0 (slice p 0 14)

variable (h : 14 ≤ p.length) {head : Frame} (hhead : head.length = 4)

include h hhead

theorem length_copied : (copied head p).length = p.length + 4 := by
  have hcopy : (slice p 0 14).length = 14 := length_slice (by omega)
  rw [copied, length_overwrite, List.length_append]
  · omega
  · rw [List.length_append]
    omega

variable (order) in
theorem length_tagged (tci : UInt16) :
    (overwrite (copied head p) 14 (order.bytes16 tci)).length = p.length + 4 := by
  have hlen := length_copied h hhead
  rw [length_overwrite16 order (by omega), hlen]

variable (order) in
theorem length_typed (tci type : UInt16) :
    (overwrite (overwrite (copied head p) 14 (order.bytes16 tci)) 16 (order.bytes16 type)).length =
      p.length + 4 := by
  have hlen : (overwrite (copied head p) 14 (order.bytes16 tci)).length = p.length + 4 :=
    length_tagged order h hhead tci
  rw [length_overwrite16 order (by omega), hlen]

theorem cell_copied (j : ℕ) :
    cell (copied head p) j = if j < 14 then cell p j else cell p (j - 4) := by
  have hcopy : (slice p 0 14).length = 14 := length_slice (by omega)
  rw [copied, cell_overwrite (by rw [List.length_append]; omega), hcopy]
  by_cases hj : j < 14
  · rw [if_pos (by omega), if_pos hj, cell_slice (by omega), Nat.zero_add, Nat.sub_zero]
  · rw [if_neg (by omega), if_neg hj, cell_append, if_neg (by omega), hhead]

/-- The type field that is read back after the tag has been written. -/
theorem wordAt_tagged (tci : UInt16) :
    wordAt order (overwrite (copied head p) 14 (order.bytes16 tci)) 12 = wordAt order p 12 := by
  have hlen := length_copied h hhead
  rw [wordAt, cell_overwrite16 order (by omega), cell_overwrite16 order (by omega),
    if_neg (by omega), if_neg (by omega), cell_copied h hhead, cell_copied h hhead]
  rfl

theorem overwrite_pushed (tci : UInt16) :
    overwrite (overwrite (overwrite (copied head p) 14 (order.bytes16 (bpfHtons order tci))) 16
      (order.bytes16 (wordAt order p 12))) 12 (order.bytes16 (bpfHtons order ethP8021Q)) =
      pushed tci p := by
  have hlen := length_copied h hhead
  have htagged := length_tagged order h hhead (bpfHtons order tci)
  have htyped := length_typed order h hhead (bpfHtons order tci) (wordAt order p 12)
  have htake : (p.take 12).length = 12 := by
    rw [List.length_take]
    omega
  apply ext_cell
  · rw [length_overwrite16 order (by omega), htyped, length_pushed (by omega)]
  · intro j _
    rw [cell_overwrite16 order (by omega), cell_overwrite16 order (by omega),
      cell_overwrite16 order (by omega), cell_copied h hhead, pushed,
      cell_append, htake, cell_append, cell_append, bpfHtons, bpfHtons, ByteOrder.bytes16_toBig16,
      ByteOrder.bytes16_toBig16, bytes16_wordAt, cell_drop]
    simp only [ByteOrder.length_bytes16]
    -- One case for each field: the addresses, the outer type, the TCI, the inner type, the rest.
    by_cases hmac : j < 12
    · rw [if_neg (by omega), if_neg (by omega), if_neg (by omega), if_pos (by omega), if_pos hmac,
        cell_take hmac]
    by_cases htpid : j < 14
    · rw [if_pos (by omega), if_neg hmac, if_pos (by omega)]
    by_cases htci : j < 16
    · rw [if_neg (by omega), if_neg (by omega), if_pos (by omega), if_neg hmac, if_neg (by omega),
        if_pos (by omega), Nat.sub_sub]
    by_cases htype : j < 18
    · rw [if_neg (by omega), if_pos (by omega), if_neg hmac, if_neg (by omega), if_neg (by omega),
        cell_pair (by omega)]
      obtain rfl | rfl : j = 16 ∨ j = 17 := by omega
      · rfl
      · rfl
    · rw [if_neg (by omega), if_neg (by omega), if_neg (by omega), if_neg (by omega), if_neg hmac,
        if_neg (by omega), if_neg (by omega)]
      congr 1
      omega

end Grown

theorem vlanTagPop_of_not_tag (h : 14 ≤ p.length) (htag : ¬ TagAt order p 12) :
    vlanTagPop order adjustHead 0 p = .ok (-1, p) := by
  simp only [vlanTagPop, Ethhdr.hProto, Ethhdr.size, VlanHdr.size, Nat.reduceAdd]
  rw [bind_run (bufferEnd_run p), bind_run (load16_wordAt (by omega))]
  by_cases hvlan : protoIsVlan order (wordAt order p 12) = true
  · have hin : 18 > p.length := by
      by_contra hlt
      exact htag ⟨hvlan, by omega⟩
    rw [if_neg (by simpa using hvlan), if_pos hin, pure_run]
  · rw [if_pos (by simpa using hvlan), pure_run]

/-- The rest of the function from the call of the helper on. Nothing has been written
before. -/
theorem vlanTagPop_of_tag (htag : TagAt order p 12) :
    vlanTagPop order adjustHead 0 p = (do
      let err ← adjustHead (4 : ℕ)
      if err ≠ 0 then
        return -1
      let dataEnd ← bufferEnd
      if 14 > dataEnd then
        return -1
      store 0 (slice p 0 14)
      store16 order 12 (wordAt order p 16)
      return ((bpfNtohs order (wordAt order p 14)).toNat : ℤ) : XdpProgram ℤ) p := by
  have hin := htag.2
  simp only [vlanTagPop, Ethhdr.hProto, Ethhdr.size, VlanHdr.size, VlanHdr.hVlanTCI,
    VlanHdr.hVlanEncapsulatedProto, Nat.reduceAdd]
  rw [bind_run (bufferEnd_run p), bind_run (load16_wordAt (by omega)), if_neg (by simp [htag.1]),
    if_neg (by omega), bind_run (load16_wordAt (by omega)), bind_run (load16_wordAt (by omega)),
    bind_run (load_run (by omega))]

theorem vlanTagPop_of_refused (htag : TagAt order p 12) {err : ℤ} (herr : err ≠ 0)
    (hadjust : adjustHead (4 : ℕ) p = .ok (err, q)) :
    vlanTagPop order adjustHead 0 p = .ok (-1, q) := by
  rw [vlanTagPop_of_tag htag, bind_run hadjust, if_pos herr, pure_run]

theorem vlanTagPop_of_granted (htag : TagAt order p 12)
    (hadjust : adjustHead (4 : ℕ) p = .ok (0, p.drop 4)) :
    vlanTagPop order adjustHead 0 p =
      .ok (((bpfNtohs order (wordAt order p 14)).toNat : ℤ), popped p) := by
  have hin := htag.2
  have hcopy : (slice p 0 14).length = 14 := length_slice (by omega)
  have hdrop : (p.drop 4).length = p.length - 4 := List.length_drop
  have hlen : (overwrite (p.drop 4) 0 (slice p 0 14)).length = p.length - 4 := by
    rw [length_overwrite (by omega), hdrop]
  rw [vlanTagPop_of_tag htag, bind_run hadjust, if_neg (by simp), bind_run (bufferEnd_run _),
    if_neg (by omega), bind_run (store_run (by omega)), bind_run (store16_run order (by omega) _),
    pure_run, overwrite_popped (by omega)]

theorem not_grants {delta err : ℤ} (herr : err ≠ 0) (h : adjustHead delta p = .ok (err, q)) :
    ¬ Grants adjustHead delta p := by
  rintro ⟨q', hgrant⟩
  have heq := h.symm.trans hgrant
  simp [herr] at heq

variable (order) in
/-- The outer tag has been cut out and its TCI is returned, or nothing has changed. -/
theorem vlanTagPop_outcome (hc : AdjustHeadContract adjustHead) (h : 14 ≤ p.length) :
    (TagAt order p 12 ∧ Grants adjustHead 4 p) ∧ vlanTagPop order adjustHead 0 p =
        .ok (((bpfNtohs order (wordAt order p 14)).toNat : ℤ), popped p) ∨
      ¬ (TagAt order p 12 ∧ Grants adjustHead 4 p) ∧
        vlanTagPop order adjustHead 0 p = .ok (-1, p) := by
  by_cases htag : TagAt order p 12
  swap
  · exact Or.inr ⟨fun hpop ↦ htag hpop.1, vlanTagPop_of_not_tag h htag⟩
  obtain ⟨err, q, hadjust, ⟨rfl, hmoved⟩ | ⟨herr, rfl⟩⟩ := hc (4 : ℕ) p
  · obtain rfl := hmoved.eq_drop
    exact Or.inl ⟨⟨htag, _, hadjust⟩, vlanTagPop_of_granted htag hadjust⟩
  · exact Or.inr ⟨fun hpop ↦ not_grants herr hadjust hpop.2,
      vlanTagPop_of_refused htag herr hadjust⟩

theorem vlanTagPop_run (hc : AdjustHeadContract adjustHead) (h : 14 ≤ p.length) :
    ∃ ret q, vlanTagPop order adjustHead 0 p = .ok (ret, q) ∧
      (ret = -1 ∧ q = p ∨
        TagAt order p 12 ∧ ret = (bpfNtohs order (wordAt order p 14)).toNat ∧ q = popped p) := by
  obtain ⟨⟨htag, _⟩, hrun⟩ | ⟨_, hrun⟩ := vlanTagPop_outcome order hc h
  · exact ⟨_, _, hrun, Or.inr ⟨htag, rfl, rfl⟩⟩
  · exact ⟨_, _, hrun, Or.inl ⟨rfl, rfl⟩⟩

theorem vlanTagPush_of_refused (h : 14 ≤ p.length) (vlid : Int32) {err : ℤ} (herr : err ≠ 0)
    (hadjust : adjustHead (-(4 : ℕ)) p = .ok (err, q)) :
    vlanTagPush order adjustHead 0 vlid p = .ok (-1, q) := by
  simp only [vlanTagPush, Ethhdr.size, VlanHdr.size, zero_sub]
  rw [bind_run (load_run (by omega)), bind_run hadjust, if_pos herr, pure_run]

theorem vlanTagPush_of_granted (h : 14 ≤ p.length) (vlid : Int32) {head : Frame}
    (hhead : head.length = 4) (hadjust : adjustHead (-(4 : ℕ)) p = .ok (0, head ++ p)) :
    vlanTagPush order adjustHead 0 vlid p = .ok (0, pushed vlid.toUInt32.toUInt16 p) := by
  have hcopy : (slice p 0 14).length = 14 := length_slice (by omega)
  have hgrown : (head ++ p).length = p.length + 4 := by
    rw [List.length_append]
    omega
  have hlen := length_copied h hhead
  have htagged := length_tagged order h hhead (bpfHtons order vlid.toUInt32.toUInt16)
  have htyped := length_typed order h hhead (bpfHtons order vlid.toUInt32.toUInt16) (wordAt order p 12)
  simp only [vlanTagPush, Ethhdr.hProto, Ethhdr.size, VlanHdr.size, VlanHdr.hVlanTCI,
    VlanHdr.hVlanEncapsulatedProto, Nat.reduceAdd, zero_sub]
  rw [bind_run (load_run (by omega)), bind_run hadjust, if_neg (by simp), bind_run (bufferEnd_run _),
    if_neg (by omega), bind_run (store_run (by omega)), if_neg (by omega), ← copied,
    bind_run (store16_run order (by omega) _), bind_run (load16_wordAt (by omega)),
    wordAt_tagged h hhead, bind_run (store16_run order (by omega) _),
    bind_run (store16_run order (by omega) _), overwrite_pushed h hhead, pure_run]

variable (order) in
theorem vlanTagPush_outcome (hc : AdjustHeadContract adjustHead) (h : 14 ≤ p.length)
    (vlid : Int32) :
    Grants adjustHead (-4) p ∧
        vlanTagPush order adjustHead 0 vlid p = .ok (0, pushed vlid.toUInt32.toUInt16 p) ∨
      ¬ Grants adjustHead (-4) p ∧ vlanTagPush order adjustHead 0 vlid p = .ok (-1, p) := by
  obtain ⟨err, q, hadjust, ⟨rfl, hmoved⟩ | ⟨herr, rfl⟩⟩ := hc (-(4 : ℕ)) p
  · obtain ⟨head, hhead, rfl⟩ := hmoved.eq_append
    exact Or.inl ⟨⟨_, hadjust⟩, vlanTagPush_of_granted h vlid hhead hadjust⟩
  · exact Or.inr ⟨not_grants herr hadjust, vlanTagPush_of_refused h vlid herr hadjust⟩

theorem vlanTagPush_run (hc : AdjustHeadContract adjustHead) (h : 14 ≤ p.length) (vlid : Int32) :
    ∃ ret q, vlanTagPush order adjustHead 0 vlid p = .ok (ret, q) ∧
      (ret = -1 ∧ q = p ∨ ret = 0 ∧ q = pushed vlid.toUInt32.toUInt16 p) := by
  obtain ⟨_, hrun⟩ | ⟨_, hrun⟩ := vlanTagPush_outcome order hc h vlid
  · exact ⟨_, _, hrun, Or.inr ⟨rfl, rfl⟩⟩
  · exact ⟨_, _, hrun, Or.inl ⟨rfl, rfl⟩⟩

end Runs

end KernelBypass.Common.RewriteHelpers
