import KernelBypass.Common.VlanStack
import KernelBypass.Common.VlanParsing

namespace KernelBypass.Common.VlanRewrites

open Foundation Buffer Access Linux ParsingHelpers RewriteHelpers VlanStack VlanParsing

variable {order : ByteOrder} {adjustHead : AdjustHead} {p q : Frame}

def OuterTag (p : Frame) : Prop := IsVlanType p 12 ∧ 18 ≤ p.length

instance (p : Frame) : Decidable (OuterTag p) := inferInstanceAs (Decidable (_ ∧ _))

variable (order) in
theorem tagAt_iff_outerTag : TagAt order p 12 ↔ OuterTag p :=
  and_congr_left' (protoIsVlan_wordAt 12)

section Pushed

variable (h : 14 ≤ p.length) (tci : UInt16)

include h

theorem drop_pushed {i : ℕ} (hi : 12 ≤ i) : (pushed tci p).drop (i + 4) = p.drop i := by
  have htake : (p.take 12).length = 12 := List.length_take_of_le (by omega)
  obtain ⟨k, rfl⟩ := Nat.exists_eq_add_of_le hi
  rw [pushed, ← List.append_assoc, ← List.append_assoc, List.drop_append,
    List.drop_eq_nil_of_le (by simp [htake]), List.nil_append, List.drop_drop]
  congr 1
  simp [htake]

theorem wordAt_pushed {i : ℕ} (hi : 12 ≤ i) :
    wordAt order (pushed tci p) (i + 4) = wordAt order p i := by
  have hcell (j : ℕ) : cell (pushed tci p) (i + 4 + j) = cell p (i + j) := by
    rw [← cell_drop, drop_pushed h tci hi, cell_drop]
  exact congrArg₂ order.word16 (hcell 0) (hcell 1)

/-- The new tag takes the place of the last one that could be skipped before. -/
theorem skippedIds_pushed (n : ℕ) : skippedIds order (pushed tci p) (n + 1) 12 =
    (tci &&& vlanVidMask) :: (skippedIds order p (n + 1) 12).take n := by
  rw [skippedIds_eq_readTags, skippedIds_eq_readTags, readTags_pushed h, List.take_succ_cons,
    List.map_cons, ← List.map_take, List.take_take, Nat.min_eq_left (Nat.le_succ n)]
  rfl

theorem length_skippedIds_pushed (n : ℕ) : (skippedIds order (pushed tci p) (n + 1) 12).length =
    min ((skippedIds order p (n + 1) 12).length + 1) (n + 1) := by
  rw [skippedIds_pushed h, List.length_cons, List.length_take, Nat.succ_min_succ, Nat.min_comm]

end Pushed

/-- From 32 to 16 to 12 bits. -/
theorem toNat_pushed_id (vlid : Int32) :
    ((vlid.toUInt32.toUInt16 &&& vlanVidMask).toNat : ℤ) = vlid.toInt % 4096 := by
  have hint := toNat_toUInt16 vlid
  rw [toNat_and_vlanVidMask]
  omega

variable (order) in
/-- A TCI is not changed by the way through an `int`. -/
theorem toUInt16_netWord (i : ℕ) : (Int32.ofInt (netWord p i)).toUInt32.toUInt16 =
    bpfNtohs order (wordAt order p i) := by
  have hlt := netWord_lt p i
  have hint := toNat_toUInt16 (Int32.ofInt (netWord p i))
  rw [Int32.toInt_ofInt_of_le (by omega) (by omega)] at hint
  apply UInt16.toNat_inj.mp
  rw [toNat_bpfNtohs_wordAt]
  omega

/-- The second word of the tag comes back, the first is that of 802.1Q. -/
theorem pushed_popped (h : 18 ≤ p.length) :
    pushed (bpfNtohs order (wordAt order p 14)) (popped p) =
      overwrite p 12 (ByteOrder.big.bytes16 ethP8021Q) := by
  have htake : (p.take 12).length = 12 := List.length_take_of_le (by omega)
  have hword : order.bytes16 (wordAt order p 14) = [cell p 14, cell p 15] := bytes16_wordAt 14
  have htci : ByteOrder.big.bytes16 (bpfNtohs order (wordAt order p 14)) =
      [cell p 14, cell p 15] := by
    rw [← hword, ← order.bytes16_toBig16, bpfNtohs, ByteOrder.toBig16_toBig16]
  have hdrop : p.drop 14 = cell p 14 :: cell p 15 :: p.drop 16 := by
    rw [drop_eq_cell_cons (by omega), drop_eq_cell_cons (by omega)]
  rw [pushed, popped, List.take_left' htake, List.drop_left' htake, htci, overwrite,
    ByteOrder.length_bytes16, hdrop, List.append_assoc]
  rfl

section Succeeded

variable (hc : AdjustHeadContract adjustHead) (h : 14 ≤ p.length)

include hc h

theorem eq_of_vlanTagPop {v : ℤ} (hv : 0 ≤ v)
    (hpop : vlanTagPop order adjustHead 0 p = .ok (v, q)) : v = netWord p 14 ∧ q = popped p := by
  obtain ⟨_, hrun⟩ | ⟨_, hrun⟩ := vlanTagPop_outcome order hc h
  · simpa [toNat_bpfNtohs_wordAt] using hpop.symm.trans hrun
  · have heq := hpop.symm.trans hrun
    simp only [Except.ok.injEq, Prod.mk.injEq] at heq
    omega

theorem eq_of_vlanTagPush {vlid : Int32}
    (hpush : vlanTagPush order adjustHead 0 vlid p = .ok (0, q)) :
    q = pushed vlid.toUInt32.toUInt16 p := by
  obtain ⟨_, hrun⟩ | ⟨_, hrun⟩ := vlanTagPush_outcome order hc h vlid
  · simpa using hpush.symm.trans hrun
  · simpa using hpush.symm.trans hrun

end Succeeded

/-- What is returned is the whole TCI, which is the id that the parser collects where the
priority and the DEI bit are zero. -/
theorem vlan_tag_pop_id_iff (order : ByteOrder) (adjustHead : AdjustHead)
    (hc : AdjustHeadContract adjustHead) (p : Frame) (htag : OuterTag p) (vlanMaxDepth : ℕ)
    (hd : 1 ≤ vlanMaxDepth) (ids : List.Vector UInt16 vlanMaxDepth) (v : ℤ) (q : Frame)
    (hpop : vlanTagPop order adjustHead 0 p = .ok (v, q)) (hv : 0 ≤ v) :
    ∃ r ids', parseEthhdrVlan order vlanMaxDepth 0 (some ids.toList) p = .ok ((r, some ids'), p) ∧
      ((ids'[0]?.map (fun id ↦ (id.toNat : ℤ)) = some v ∧ v ≤ 4095) ↔ netWord p 14 < 4096) := by
  have h : 14 ≤ p.length := le_trans (by decide) htag.2
  obtain ⟨n, rfl⟩ := Nat.exists_eq_add_of_le' hd
  obtain ⟨rfl, _⟩ := eq_of_vlanTagPop hc h hv hpop
  obtain ⟨r, ids', hparse, _, l, rfl⟩ := exists_parseEthhdrVlan order h ids
  refine ⟨r, _, hparse, ?_⟩
  rw [skippedIds, if_pos ((tagAt_iff_outerTag order).mpr htag), List.cons_append,
    List.getElem?_cons_zero, Option.map_some, toNat_vlanId, Option.some_inj]
  simp only [Nat.reduceAdd]
  omega

def priorityTagged : Frame :=
  [2, 0, 0, 0, 0, 1, 2, 0, 0, 0, 0, 2, 0x81, 0, 0x20, 5, 8, 0, 69]

theorem vlan_tag_pop_id_priority :
    AdjustHeadContract (plainAdjustHead []) ∧ OuterTag priorityTagged ∧
      (∃ q, vlanTagPop .little (plainAdjustHead []) 0 priorityTagged = .ok (8197, q)) ∧
      ∃ r, parseEthhdrVlan .little 4 0 (some [0, 0, 0, 0]) priorityTagged =
        .ok ((r, some [5, 0, 0, 0]), priorityTagged) :=
  ⟨plainAdjustHead_contract [], by decide, ⟨_, rfl⟩, ⟨_, rfl⟩⟩

theorem vlan_tag_pop_id_doubleTagged :
    ∃ v q, vlanTagPop .big (plainAdjustHead []) 0 (pushed 7 doubleTagged) = .ok (v, q) ∧
      ∃ r ids', parseEthhdrVlan .big 1 0 (some [0]) (pushed 7 doubleTagged) =
          .ok ((r, some ids'), pushed 7 doubleTagged) ∧
        ids'[0]?.map (fun id ↦ (id.toNat : ℤ)) = some v ∧ v ≤ 4095 := by
  have hpop : vlanTagPop .big (plainAdjustHead []) 0 (pushed 7 doubleTagged) =
      .ok (7, doubleTagged) := by rfl
  obtain ⟨r, ids', hrun, hid⟩ := vlan_tag_pop_id_iff .big _ (plainAdjustHead_contract [])
    (pushed 7 doubleTagged) (by decide) 1 le_rfl ⟨[0], rfl⟩ 7 _ hpop (by decide)
  exact ⟨7, _, hpop, r, ids', hrun, hid.mpr (by decide)⟩

theorem parse_ethhdr_vlan_after_push (order : ByteOrder) (adjustHead : AdjustHead)
    (hc : AdjustHeadContract adjustHead) (p : Frame) (h : 14 ≤ p.length) (vlanMaxDepth : ℕ)
    (hd : 1 ≤ vlanMaxDepth) (ids ids₁ : List.Vector UInt16 vlanMaxDepth) (vlid : Int32) (q : Frame)
    (hpush : vlanTagPush order adjustHead 0 vlid p = .ok (0, q)) :
    ∃ k r old r₁ new, ∃ vid : UInt16,
      parseEthhdrVlan order vlanMaxDepth 0 (some ids.toList) p = .ok ((r, some old), p) ∧
      Skips order vlanMaxDepth p 0 (some ids.toList) (r, some old) k ∧
      parseEthhdrVlan order vlanMaxDepth 0 (some ids₁.toList) q = .ok ((r₁, some new), q) ∧
      Skips order vlanMaxDepth q 0 (some ids₁.toList) (r₁, some new) (min (k + 1) vlanMaxDepth) ∧
      (vid.toNat : ℤ) = vlid.toInt % 4096 ∧
      new.take (min (k + 1) vlanMaxDepth) = vid :: old.take (min k (vlanMaxDepth - 1)) ∧
      (k < vlanMaxDepth → r₁.ret = r.ret ∧ q.drop r₁.pos = p.drop r.pos) := by
  obtain ⟨n, rfl⟩ := Nat.exists_eq_add_of_le' hd
  obtain rfl := eq_of_vlanTagPush hc h hpush
  have hlen := length_pushed (p := p) (by omega) vlid.toUInt32.toUInt16
  have hcount : (skippedIds order (pushed vlid.toUInt32.toUInt16 p) (n + 1) 12).length = _ :=
    length_skippedIds_pushed h _ n
  obtain ⟨r, _, hparse, hskips, l, rfl⟩ := exists_parseEthhdrVlan order h ids
  obtain ⟨r₁, _, hparse₁, hskips₁, l₁, rfl⟩ : ∃ r₁ new₁, parseEthhdrVlan order _ 0 _
    (pushed vlid.toUInt32.toUInt16 p) = .ok ((r₁, some new₁), _) ∧ _ :=
    exists_parseEthhdrVlan order (by omega) ids₁
  refine ⟨_, r, _, r₁, _, _, hparse, hskips, hparse₁, hcount ▸ hskips₁,
    toNat_pushed_id vlid, ?_, fun hk ↦ ?_⟩
  · rw [← hcount, List.take_left, skippedIds_pushed h, Nat.add_sub_cancel,
      List.take_append_of_le_length (Nat.min_le_left _ _), Nat.min_comm, ← List.take_eq_take_min]
  · have hcursor : r.pos = 0 + 14 + 4 * (skippedIds order p (n + 1) 12).length := hskips.cursor
    have hcursor₁ : r₁.pos = 0 + 14 + 4 * _ := hskips₁.cursor
    have hpos : r₁.pos = r.pos + 4 := by omega
    have htype : r.ret = (wordAt order p (r.pos - 2)).toNat := hskips.type
    have htype₁ : r₁.ret = (wordAt order _ (r₁.pos - 2)).toNat := hskips₁.type
    rw [htype, htype₁, hpos, Nat.sub_add_comm (by omega), wordAt_pushed h _ (by omega),
      drop_pushed h _ (by omega)]
    exact ⟨rfl, rfl⟩

/-- At a depth of two the inner of the two tags is pushed out of sight. -/
theorem parse_ethhdr_vlan_after_push_doubleTagged :
    ∃ q, vlanTagPush .little (plainAdjustHead [7, 7, 7, 7]) 0 (-1) doubleTagged = .ok (0, q) ∧
      ∃ k r old r₁ new, ∃ vid : UInt16,
        parseEthhdrVlan .little 2 0 (some [0, 0]) doubleTagged =
          .ok ((r, some old), doubleTagged) ∧
        parseEthhdrVlan .little 2 0 (some [0, 0]) q = .ok ((r₁, some new), q) ∧
        (vid.toNat : ℤ) = 4095 ∧ new.take (min (k + 1) 2) = vid :: old.take (min k 1) := by
  have hpush : vlanTagPush .little (plainAdjustHead [7, 7, 7, 7]) 0 (-1) doubleTagged =
      .ok (0, pushed 65535 doubleTagged) := by rfl
  obtain ⟨k, r, old, r₁, new, vid, hparse, _, hparse₁, _, hvid, htake, _⟩ :=
    parse_ethhdr_vlan_after_push .little _ (plainAdjustHead_contract [7, 7, 7, 7]) doubleTagged
      (by decide) 2 (by decide) ⟨[0, 0], rfl⟩ ⟨[0, 0], rfl⟩ (-1) _ hpush
  exact ⟨_, hpush, k, r, old, r₁, new, vid, hparse, hparse₁, hvid, htake⟩

theorem vlan_tag_push_popped (order : ByteOrder) (adjustHead adjustHead' : AdjustHead)
    (hc : AdjustHeadContract adjustHead) (hc' : AdjustHeadContract adjustHead') (p : Frame)
    (htag : OuterTag p) (v : ℤ) (q r : Frame)
    (hpop : vlanTagPop order adjustHead 0 p = .ok (v, q)) (hv : 0 ≤ v)
    (hpush : vlanTagPush order adjustHead' 0 (Int32.ofInt v) q = .ok (0, r)) :
    r.length = p.length ∧ (∀ i, i ≠ 12 → i ≠ 13 → cell r i = cell p i) ∧ cell r 12 = 0x81 ∧
      cell r 13 = 0x00 ∧ (r = p ↔ netWord p 12 = 0x8100) := by
  have hin : 18 ≤ p.length := htag.2
  obtain ⟨rfl, rfl⟩ := eq_of_vlanTagPop hc (by omega) hv hpop
  have hlen := length_popped (p := p) (by omega)
  obtain rfl := eq_of_vlanTagPush hc' (by omega) hpush
  rw [toUInt16_netWord order, pushed_popped hin]
  have hcell (i : ℕ) := cell_overwrite16 .big (i := 12) (p := p) (by omega) ethP8021Q i
  refine ⟨length_overwrite16 .big (by omega) _, fun i h12 h13 ↦ ?_, ?_, ?_, ?_⟩
  · rw [hcell, if_neg (by omega)]
  · rw [hcell]
    rfl
  · rw [hcell]
    rfl
  · constructor
    · intro heq
      rw [netWord, ← heq, hcell, hcell]
      rfl
    · intro htype
      have hslice : slice p 12 2 = slice (ByteOrder.big.bytes16 ethP8021Q) 0 2 :=
        (netWord_eq_iff (by omega) le_rfl).mp htype
      have hself : overwrite p 12 (slice p 12 2) = p := overwrite_slice (by omega)
      rwa [hslice] at hself

theorem vlan_tag_push_popped_doubleTagged :
    ∃ q r, vlanTagPop .little (plainAdjustHead []) 0 doubleTagged = .ok (8197, q) ∧
      vlanTagPush .little (plainAdjustHead [7, 7, 7, 7]) 0 8197 q = .ok (0, r) ∧
      r.length = doubleTagged.length ∧ cell r 12 = 0x81 ∧ r ≠ doubleTagged := by
  have hpop : vlanTagPop .little (plainAdjustHead []) 0 doubleTagged =
      .ok (8197, popped doubleTagged) := by rfl
  have hpush : vlanTagPush .little (plainAdjustHead [7, 7, 7, 7]) 0 8197 (popped doubleTagged) =
      .ok (0, pushed 8197 (popped doubleTagged)) := by rfl
  obtain ⟨hlen, _, htype, _, heq⟩ := vlan_tag_push_popped .little _ _ (plainAdjustHead_contract [])
    (plainAdjustHead_contract [7, 7, 7, 7]) doubleTagged (by decide) 8197 _ _ hpop (by decide) hpush
  exact ⟨_, _, hpop, hpush, hlen, htype, mt heq.mp (by decide)⟩

theorem vlan_rewrites_all_or_nothing (order : ByteOrder) (adjustHead : AdjustHead)
    (hc : AdjustHeadContract adjustHead) (p : Frame) (h : 14 ≤ p.length) (vlid : Int32) :
    (∃ ret q, vlanTagPop order adjustHead 0 p = .ok (ret, q) ∧ (ret < 0 → q = p) ∧
      (0 ≤ ret ↔ OuterTag p ∧ Grants adjustHead 4 p)) ∧
    ∃ ret q, vlanTagPush order adjustHead 0 vlid p = .ok (ret, q) ∧ (ret < 0 → q = p) ∧
      (0 ≤ ret ↔ Grants adjustHead (-4) p) := by
  constructor
  · simp only [← tagAt_iff_outerTag order]
    obtain ⟨hgrant, hrun⟩ | ⟨hno, hrun⟩ := vlanTagPop_outcome order hc h
    · exact ⟨_, _, hrun, fun hneg ↦ by omega, iff_of_true (Int.natCast_nonneg _) hgrant⟩
    · exact ⟨_, _, hrun, fun _ ↦ rfl, iff_of_false (by decide) hno⟩
  · obtain ⟨hgrant, hrun⟩ | ⟨hno, hrun⟩ := vlanTagPush_outcome order hc h vlid
    · exact ⟨_, _, hrun, fun hneg ↦ absurd hneg (by decide), iff_of_true le_rfl hgrant⟩
    · exact ⟨_, _, hrun, fun _ ↦ rfl, iff_of_false (by decide) hno⟩

/-- A tag that is cut short is not popped, and another is pushed in front of it. -/
theorem vlan_rewrites_all_or_nothing_short :
    (∃ ret q, vlanTagPop .big (plainAdjustHead [7, 7, 7, 7]) 0 (priorityTagged.take 17) =
        .ok (ret, q) ∧ (ret < 0 → q = priorityTagged.take 17)) ∧
      ∃ ret q, vlanTagPush .big (plainAdjustHead [7, 7, 7, 7]) 0 5 (priorityTagged.take 17) =
        .ok (ret, q) ∧ 0 ≤ ret := by
  obtain ⟨⟨ret, q, hpop, hsame, _⟩, ret', q', hpush, _, hgrant⟩ :=
    vlan_rewrites_all_or_nothing .big (plainAdjustHead [7, 7, 7, 7]) (plainAdjustHead_contract _)
      (priorityTagged.take 17) (by decide) 5
  exact ⟨⟨ret, q, hpop, hsame⟩, ret', q', hpush, hgrant.mpr ⟨_, rfl⟩⟩

end KernelBypass.Common.VlanRewrites
