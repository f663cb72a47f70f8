import KernelBypass.Benchmarks.Python
import KernelBypass.Foundation.OrderStatistics
import Mathlib.Algebra.Order.Floor.Div
import Mathlib.GroupTheory.GroupAction.Ring

namespace KernelBypass.Benchmarks.Percentile

open Foundation OrderStatistics Python

variable {α : Type} [LinearOrder α]

def pct (lst : List α) (p : ℤ) : Except PyError (Option α) :=
  if lst.isEmpty then .ok none
  else
    let k := roundHalfEven (((lst.length - 1 : ℤ) * p : ℤ) / 100)
    some <$> getItem (sorted lst) k

/-- The least element such that at least `p` percent of the elements do not exceed it. -/
def NearestRank (p : ℕ) (lst : List α) (v : α) : Prop :=
  IsLeast {w | w ∈ lst ∧ p * lst.length ≤ 100 * lst.countP (· ≤ w)} v

/-- Where `(n - 1) * p` is `100 * q + s`, the percentile stands at position `q` or `q + 1` of
the sorted list, and so does the element that rounding selects. -/
def nearestIndex (n p : ℕ) : ℕ :=
  if (n - 1) * p % 100 + p ≤ 100 then (n - 1) * p / 100 else (n - 1) * p / 100 + 1

def roundedIndex (n p : ℕ) : ℕ :=
  if (n - 1) * p % 100 < 50 ∨ (n - 1) * p % 100 = 50 ∧ (n - 1) * p / 100 % 2 = 0 then
    (n - 1) * p / 100
  else (n - 1) * p / 100 + 1

def RanksAgree (n p : ℕ) : Prop :=
  (n - 1) * p % 100 + p ≤ 100 ↔
    (n - 1) * p % 100 < 50 ∨ (n - 1) * p % 100 = 50 ∧ (n - 1) * p / 100 % 2 = 0

instance (n p : ℕ) : Decidable (RanksAgree n p) := inferInstanceAs (Decidable (_ ↔ _))

def Tied (lst : List α) (q : ℕ) : Prop :=
  ∃ v ∈ lst, lst.countP (· < v) ≤ q ∧ q + 2 ≤ lst.countP (· ≤ v)

theorem ranksAgree_iff (n p : ℕ) : RanksAgree n p ↔ roundedIndex n p = nearestIndex n p := by
  unfold RanksAgree roundedIndex nearestIndex
  split_ifs <;> omega

variable {lst : List α} {n p : ℕ}

theorem tied_iff {q : ℕ} :
    Tied lst q ↔ ∃ v, (sorted lst)[q]? = some v ∧ (sorted lst)[q + 1]? = some v := by
  constructor
  · rintro ⟨v, _, hlt, hle⟩
    exact ⟨v, sorted_eq_some_iff.mpr ⟨hlt, by omega⟩, sorted_eq_some_iff.mpr ⟨by omega, by omega⟩⟩
  · rintro ⟨v, hq, hq'⟩
    exact ⟨v, mem_of_sorted hq, (sorted_eq_some_iff.mp hq).1, (sorted_eq_some_iff.mp hq').2⟩

theorem roundedIndex_lt (hn : 0 < n) (hp : p ≤ 100) : roundedIndex n p < n := by
  have hbound : (n - 1) * p ≤ (n - 1) * 100 := Nat.mul_le_mul_left _ hp
  unfold roundedIndex
  split_ifs <;> omega

theorem pct_run (hn : 0 < lst.length) (p : ℕ) :
    pct lst p = some <$> getItem (sorted lst) (roundedIndex lst.length p) := by
  have hne : lst.isEmpty = false := by simpa using List.ne_nil_of_length_pos hn
  have hcast : (((lst.length - 1 : ℤ) * p : ℤ) : ℚ) / 100 =
      ((lst.length - 1) * p : ℕ) / (100 : ℕ) := by
    push_cast [Nat.cast_sub (show 1 ≤ lst.length from hn)]
    rfl
  have hhalf : ∀ s : ℕ, 2 * s < 100 ↔ s < 50 := by omega
  have hhalf' : ∀ s : ℕ, 2 * s = 100 ↔ s = 50 := by omega
  simp only [pct, hne, hcast, roundHalfEven_div _ (show 0 < 100 by decide), hhalf, hhalf']
  rfl

theorem nearestIndex_eq (hn : 0 < n) (hp : 0 < p) (hp' : p ≤ 100) :
    nearestIndex n p = p * n ⌈/⌉ 100 - 1 := by
  obtain ⟨m, rfl⟩ := Nat.exists_eq_succ_of_ne_zero hn.ne'
  have hmul : p * (m + 1) = m * p + p := by ring
  rw [nearestIndex, Nat.ceilDiv_eq_add_pred_div, Nat.succ_eq_add_one, Nat.add_sub_cancel, hmul]
  split_ifs <;> omega

theorem nearestRank_iff (hn : 0 < lst.length) (hp : 0 < p) {v : α} :
    NearestRank p lst v ↔ (sorted lst)[p * lst.length ⌈/⌉ 100 - 1]? = some v := by
  have hpos : 0 < p * lst.length := Nat.mul_pos hp hn
  have hset : {w | w ∈ lst ∧ p * lst.length ≤ 100 * lst.countP (· ≤ w)} =
      {w | w ∈ lst ∧ p * lst.length ⌈/⌉ 100 - 1 < lst.countP (· ≤ w)} := by
    ext w
    refine and_congr_right fun _ ↦ ?_
    rw [Nat.ceilDiv_eq_add_pred_div]
    omega
  rw [← isLeast_iff, NearestRank, hset]

/-- What `pct` returns, and what it should: each stands at one of two neighbouring
positions. -/
theorem pct_eq_iff (hn : 0 < lst.length) (hp : 0 < p) (hp' : p ≤ 100) {v : α} :
    (pct lst p = .ok (some v) ↔ (sorted lst)[roundedIndex lst.length p]? = some v) ∧
      (NearestRank p lst v ↔ (sorted lst)[nearestIndex lst.length p]? = some v) := by
  refine ⟨?_, by rw [nearestIndex_eq hn hp hp', nearestRank_iff hn hp]⟩
  obtain ⟨u, hu⟩ := exists_sorted (roundedIndex_lt hn hp')
  rw [pct_run hn, getItem_natCast hu, hu]
  constructor
  · rintro ⟨⟩
    rfl
  · rintro ⟨⟩
    rfl

/-- `pct` is the percentile where rounding selects its rank, or a repeated value makes up
for the other rank. -/
theorem pct_nearest_rank_iff (lst : List α) (p : ℕ) (hlst : lst ≠ []) (hp : 1 ≤ p)
    (hp' : p ≤ 100) :
    (∃ v, pct lst p = .ok (some v) ∧ NearestRank p lst v ∧
        (sorted lst)[p * lst.length ⌈/⌉ 100 - 1]? = some v) ↔
      RanksAgree lst.length p ∨ Tied lst ((lst.length - 1) * p / 100) := by
  have hn : 0 < lst.length := List.length_pos_iff.mpr hlst
  simp only [← nearestRank_iff hn hp, and_self, (pct_eq_iff hn hp hp').1,
    (pct_eq_iff hn hp hp').2]
  by_cases hagree : RanksAgree lst.length p
  · obtain ⟨v, hv⟩ := exists_sorted (roundedIndex_lt hn hp')
    exact iff_of_true ⟨v, hv, (ranksAgree_iff _ _).mp hagree ▸ hv⟩ (Or.inl hagree)
  · rw [or_iff_right hagree, tied_iff]
    have hne := mt (ranksAgree_iff _ _).mpr hagree
    unfold roundedIndex nearestIndex at hne ⊢
    split_ifs at hne ⊢
    · exact absurd rfl hne
    · rfl
    · exact exists_congr fun v ↦ and_comm
    · exact absurd rfl hne

/-- The percentiles of the table, for a hundred samples. -/
example : RanksAgree 100 95 ∧ RanksAgree 100 99 := by decide

theorem pct_nearest_rank_five :
    ∃ v, pct [9, 4, 4, 7, (5 : ℤ)] (50 : ℕ) = .ok (some v) ∧
      NearestRank 50 [9, 4, 4, 7, (5 : ℤ)] v := by
  obtain ⟨v, hv, hrank, _⟩ := (pct_nearest_rank_iff [9, 4, 4, 7, (5 : ℤ)] 50 (by decide)
    (by decide) (by decide)).mpr (Or.inl (by decide))
  exact ⟨v, hv, hrank⟩

/-- The median of four by nearest rank is the second, but the third is returned. -/
theorem pct_median_of_four :
    pct [1, 2, 3, (4 : ℤ)] 50 = .ok (some 3) ∧ NearestRank 50 [1, 2, 3, (4 : ℤ)] 2 ∧
      ¬ NearestRank 50 [1, 2, 3, (4 : ℤ)] 3 := by
  have hrank (v : ℤ) : NearestRank 50 [1, 2, 3, (4 : ℤ)] v ↔
      (sorted [1, 2, 3, (4 : ℤ)])[50 * 4 ⌈/⌉ 100 - 1]? = some v :=
    nearestRank_iff (by decide) (by decide)
  refine ⟨?_, ?_, ?_⟩
  · change pct [1, 2, 3, (4 : ℤ)] (50 : ℕ) = .ok (some 3)
    exact (pct_eq_iff (by decide) (by decide) (by decide)).1.mpr rfl
  · rw [hrank]
    rfl
  · rw [hrank]
    decide

end KernelBypass.Benchmarks.Percentile
