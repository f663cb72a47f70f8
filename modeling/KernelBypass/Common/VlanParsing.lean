import KernelBypass.Common.ParsingHelpers
import Mathlib.Data.Vector.Basic

namespace KernelBypass.Common.VlanParsing

open Foundation Buffer Access Linux ParsingHelpers

def IsVlanType (p : Frame) (t : ℕ) : Prop := netWord p t = 0x8100 ∨ netWord p t = 0x88A8

instance (p : Frame) (t : ℕ) : Decidable (IsVlanType p t) := inferInstanceAs (Decidable (_ ∨ _))

variable {order : ByteOrder} {p : Frame}

theorem toNat_bpfNtohs_wordAt (order : ByteOrder) (p : Frame) (t : ℕ) :
    (bpfNtohs order (wordAt order p t)).toNat = netWord p t :=
  order.toNat_toBig16_word16 _ _

theorem wordAt_eq_bpfHtons_iff (t : ℕ) (v : UInt16) :
    wordAt order p t = bpfHtons order v ↔ netWord p t = v.toNat := by
  rw [← toNat_bpfNtohs_wordAt order, UInt16.toNat_inj]
  constructor
  · intro h
    rw [h, bpfNtohs, bpfHtons, ByteOrder.toBig16_toBig16]
  · intro h
    rw [← h, bpfNtohs, bpfHtons, ByteOrder.toBig16_toBig16]

theorem protoIsVlan_wordAt (t : ℕ) :
    protoIsVlan order (wordAt order p t) = true ↔ IsVlanType p t := by
  rw [protoIsVlan, Bool.or_eq_true, beq_iff_eq, beq_iff_eq, wordAt_eq_bpfHtons_iff,
    wordAt_eq_bpfHtons_iff]
  rfl

theorem toNat_and_vlanVidMask (tci : UInt16) : (tci &&& vlanVidMask).toNat = tci.toNat % 4096 := by
  rw [UInt16.toNat_and]
  exact Nat.and_two_pow_sub_one_eq_mod _ 12

theorem toNat_vlanId (i : ℕ) : (vlanId order p i).toNat = netWord p i % 4096 := by
  rw [vlanId, toNat_and_vlanVidMask, toNat_bpfNtohs_wordAt]

section Skipped

variable {n t j : ℕ}

theorem tagAt_of_lt (h : j < (skippedIds order p n t).length) : TagAt order p (t + 4 * j) := by
  induction n generalizing t j with
  | zero => exact absurd h (Nat.not_lt_zero j)
  | succ n ih =>
    rw [skippedIds] at h
    split_ifs at h with htag
    · cases j with
      | zero => exact htag
      | succ j =>
        have hrest := ih (Nat.lt_of_succ_lt_succ h)
        rwa [show t + 4 + 4 * j = t + 4 * (j + 1) by omega] at hrest
    · exact absurd h (Nat.not_lt_zero j)

theorem getElem?_skippedIds (h : j < (skippedIds order p n t).length) :
    (skippedIds order p n t)[j]? = some (vlanId order p (t + 2 + 4 * j)) := by
  induction n generalizing t j with
  | zero => exact absurd h (Nat.not_lt_zero j)
  | succ n ih =>
    rw [skippedIds] at h ⊢
    split_ifs at h ⊢ with htag
    · cases j with
      | zero => rfl
      | succ j =>
        have hrest := ih (Nat.lt_of_succ_lt_succ h)
        rw [List.getElem?_cons_succ, hrest]
        congr 2
        omega
    · exact absurd h (Nat.not_lt_zero j)

/-- The loop ends at its bound or in front of what is no whole tag. -/
theorem skippedIds_maximal (order : ByteOrder) (p : Frame) (n t : ℕ) :
    (skippedIds order p n t).length = n ∨
      ¬ TagAt order p (t + 4 * (skippedIds order p n t).length) := by
  induction n generalizing t with
  | zero => exact Or.inl rfl
  | succ n ih =>
    rw [skippedIds]
    split_ifs with htag
    · rcases ih (t + 4) with hfull | hend
      · exact Or.inl (congrArg (· + 1) hfull)
      · rw [List.length_cons]
        rw [show t + 4 + 4 * (skippedIds order p n (t + 4)).length =
          t + 4 * ((skippedIds order p n (t + 4)).length + 1) by omega] at hend
        exact Or.inr hend
    · exact Or.inr htag

end Skipped

/-- The low 12 bits of the first `k` TCIs have been stored, and nothing else. -/
structure Collected (p : Frame) (nh k : ℕ) (ids ids' : List UInt16) : Prop where
  length : ids'.length = ids.length
  stored : ∀ i < k, ids'[i]?.map UInt16.toNat = some (netWord p (nh + 14 + 4 * i) % 4096)
  kept : ∀ i, k ≤ i → ids'[i]? = ids[i]?

/-- What a call of `parse_ethhdr_vlan` leaves that has skipped `k` tags: no more than
allowed, and none that could have been skipped as well is left. -/
structure Skips (order : ByteOrder) (vlanMaxDepth : ℕ) (p : Frame) (nh : ℕ) (vlans : CollectVlans)
    (r : Parsed × CollectVlans) (k : ℕ) : Prop where
  depth : k ≤ vlanMaxDepth
  types : ∀ j < k, IsVlanType p (nh + 12 + 4 * j)
  cursor : r.1.pos = nh + 14 + 4 * k
  inside : r.1.pos ≤ p.length
  type : r.1.ret = (wordAt order p (r.1.pos - 2)).toNat
  ids : Option.Rel (Collected p nh k) vlans r.2
  maximal : k = vlanMaxDepth ∨ ¬ IsVlanType p (r.1.pos - 2) ∨ p.length < r.1.pos + 4

def skipped (order : ByteOrder) (vlanMaxDepth : ℕ) (p : Frame) (nh : ℕ) (vlans : CollectVlans) :
    Parsed × CollectVlans :=
  let ids := skippedIds order p vlanMaxDepth (nh + 12)
  (⟨(wordAt order p (nh + 12 + 4 * ids.length)).toNat, nh + 14 + 4 * ids.length, some nh⟩,
    vlans.map (overwrite · 0 ids))

section Run

variable (order) {vlanMaxDepth nh : ℕ}

theorem collected_skippedIds {ids : List UInt16} (hids : vlanMaxDepth ≤ ids.length) :
    Collected p nh (skippedIds order p vlanMaxDepth (nh + 12)).length ids
      (overwrite ids 0 (skippedIds order p vlanMaxDepth (nh + 12))) := by
  have hle : (skippedIds order p vlanMaxDepth (nh + 12)).length ≤ vlanMaxDepth :=
    length_skippedIds_le _ _
  refine ⟨length_overwrite (by omega), fun i hi ↦ ?_, fun i hi ↦ ?_⟩
  · have hget := getElem?_skippedIds hi
    rw [overwrite, List.take_zero, List.nil_append, List.getElem?_append_left hi, hget,
      Option.map_some, toNat_vlanId]
  · rw [overwrite, List.take_zero, List.nil_append, List.getElem?_append_right hi,
      List.getElem?_drop, Nat.zero_add, Nat.add_sub_cancel' hi]

section Frame

variable (h : nh + 14 ≤ p.length) (vlans : Option (List.Vector UInt16 vlanMaxDepth))

include h

theorem parseEthhdrVlan_skipped :
    parseEthhdrVlan order vlanMaxDepth nh (vlans.map List.Vector.toList) p =
      .ok (skipped order vlanMaxDepth p nh (vlans.map List.Vector.toList), p) := by
  have hv : ∀ ids ∈ vlans.map List.Vector.toList, vlanMaxDepth ≤ ids.length := by
    intro ids hids
    obtain ⟨v, _, rfl⟩ := Option.mem_map.mp hids
    exact v.toList_length.ge
  rw [parseEthhdrVlan_run hv, if_pos h]
  rfl

theorem skips_skipped :
    Skips order vlanMaxDepth p nh (vlans.map List.Vector.toList)
      (skipped order vlanMaxDepth p nh (vlans.map List.Vector.toList))
      (skippedIds order p vlanMaxDepth (nh + 12)).length := by
  have hin := skippedIds_inside order (n := vlanMaxDepth) (t := nh + 12) h
  have hlast : (skipped order vlanMaxDepth p nh (vlans.map List.Vector.toList)).1.pos - 2 =
      nh + 12 + 4 * (skippedIds order p vlanMaxDepth (nh + 12)).length := by
    simp only [skipped]
    omega
  constructor
  · exact length_skippedIds_le _ _
  · exact fun j hj ↦ (protoIsVlan_wordAt _).mp (tagAt_of_lt hj).1
  · rfl
  · exact hin
  · rw [hlast]
    rfl
  · cases vlans with
    | none => exact .none
    | some ids => exact .some (collected_skippedIds order ids.toList_length.ge)
  · rw [hlast]
    rcases skippedIds_maximal order p vlanMaxDepth (nh + 12) with hfull | hend
    · exact Or.inl hfull
    · -- What stops the loop early is a type that is no tag's or a tag that is cut short.
      rcases not_and_or.mp hend with htype | hshort
      · exact Or.inr (Or.inl (mt (protoIsVlan_wordAt _).mpr htype))
      · refine Or.inr (Or.inr ?_)
        simp only [skipped]
        omega

end Frame

/-- The parse of a frame that starts with an Ethernet header, with a place for the ids. -/
theorem exists_parseEthhdrVlan (h : 14 ≤ p.length) (ids : List.Vector UInt16 vlanMaxDepth) :
    ∃ r ids', parseEthhdrVlan order vlanMaxDepth 0 (some ids.toList) p = .ok ((r, some ids'), p) ∧
      Skips order vlanMaxDepth p 0 (some ids.toList) (r, some ids')
        (skippedIds order p vlanMaxDepth 12).length ∧
      skippedIds order p vlanMaxDepth 12 <+: ids' := by
  have h0 : 0 + 14 ≤ p.length := by omega
  refine ⟨_, _, parseEthhdrVlan_skipped order h0 (some ids), skips_skipped order h0 (some ids), ?_⟩
  simp [overwrite]

end Run

theorem parse_ethhdr_vlan_skips (order : ByteOrder) (vlanMaxDepth : ℕ) (p : Frame) (nh : ℕ)
    (h : nh + 14 ≤ p.length) (vlans : Option (List.Vector UInt16 vlanMaxDepth)) :
    ∃ r, parseEthhdrVlan order vlanMaxDepth nh (vlans.map List.Vector.toList) p = .ok (r, p) ∧
      0 ≤ r.1.ret ∧ r.1.ret ≤ 65535 ∧
      ∃! k, Skips order vlanMaxDepth p nh (vlans.map List.Vector.toList) r k := by
  have hskips := skips_skipped order h vlans
  refine ⟨_, parseEthhdrVlan_skipped order h vlans, Int.natCast_nonneg _, ?_, _, hskips, ?_⟩
  · have hlt := (wordAt order p
      (nh + 12 + 4 * (skippedIds order p vlanMaxDepth (nh + 12)).length)).toNat_lt
    simp only [skipped]
    omega
  · intro k hk
    have hcursor := hk.cursor.symm.trans hskips.cursor
    omega

def doubleTagged : Frame :=
  [2, 0, 0, 0, 0, 1, 2, 0, 0, 0, 0, 2, 0x88, 0xA8, 0x20, 5, 0x81, 0, 0, 7, 8, 0, 69]

theorem parse_ethhdr_vlan_skips_doubleTagged :
    parseEthhdrVlan .little 4 0 (some [9, 9, 9, 9]) doubleTagged =
        .ok ((⟨8, 22, some 0⟩, some [5, 7, 9, 9]), doubleTagged) ∧
      ∃! k, Skips .little 4 doubleTagged 0 (some [9, 9, 9, 9])
        (⟨8, 22, some 0⟩, some [5, 7, 9, 9]) k := by
  have hrun : parseEthhdrVlan .little 4 0 (some [9, 9, 9, 9]) doubleTagged =
      .ok ((⟨8, 22, some 0⟩, some [5, 7, 9, 9]), doubleTagged) := by rfl
  obtain ⟨r, hrun', _, _, hskips⟩ := parse_ethhdr_vlan_skips .little 4 doubleTagged 0 (by decide)
    (some ⟨[9, 9, 9, 9], rfl⟩)
  obtain rfl : (⟨8, 22, some 0⟩, some [5, 7, 9, 9]) = r := by
    simpa using hrun.symm.trans hrun'
  exact ⟨hrun, hskips⟩

end KernelBypass.Common.VlanParsing
