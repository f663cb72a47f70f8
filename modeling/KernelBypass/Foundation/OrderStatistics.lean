import Mathlib.Data.List.Sort
import Mathlib.Order.Bounds.Basic

namespace KernelBypass.Foundation.OrderStatistics

variable {α : Type} [LinearOrder α]

def sorted (l : List α) : List α := l.insertionSort (· ≤ ·)

/-- In a sorted list the elements with a property that is closed downwards come first. -/
theorem lt_countP_iff {s : List α} (hs : s.Pairwise (· ≤ ·)) {P : α → Bool}
    (hP : ∀ a b, a ≤ b → P b → P a) {k : ℕ} (hk : k < s.length) :
    k < s.countP P ↔ P s[k] := by
  induction s generalizing k with
  | nil => simp at hk
  | cons a s ih =>
    obtain ⟨hle, hs⟩ := List.pairwise_cons.mp hs
    by_cases ha : P a
    · rw [List.countP_cons_of_pos ha]
      cases k with
      | zero => simpa using ha
      | succ k => simpa using ih hs (Nat.lt_of_succ_lt_succ hk)
    · have hnone : ∀ b ∈ a :: s, ¬ P b := by
        intro b hb
        rcases List.mem_cons.mp hb with rfl | hb
        · exact ha
        · exact fun h ↦ ha (hP a b (hle b hb) h)
      rw [List.countP_eq_zero.mpr hnone]
      simpa using hnone _ (List.getElem_mem hk)

theorem pairwise_sorted (l : List α) : (sorted l).Pairwise (· ≤ ·) :=
  List.pairwise_insertionSort _ l

theorem length_sorted (l : List α) : (sorted l).length = l.length := List.length_insertionSort _ l

theorem countP_sorted (P : α → Bool) (l : List α) : (sorted l).countP P = l.countP P :=
  (List.perm_insertionSort _ l).countP_eq P

theorem mem_of_sorted {l : List α} {k : ℕ} {v : α} (h : (sorted l)[k]? = some v) : v ∈ l :=
  (List.mem_insertionSort _).mp (List.mem_of_getElem? h)

section Rank

variable {l : List α} {k : ℕ} {u : α} (hu : (sorted l)[k]? = some u)
include hu

theorem lt_countP_le_iff (v : α) : k < l.countP (· ≤ v) ↔ u ≤ v := by
  obtain ⟨hk, rfl⟩ := List.getElem?_eq_some_iff.mp hu
  rw [← countP_sorted, lt_countP_iff (pairwise_sorted l) _ hk]
  · simp
  · intro a b hab hb
    simpa using hab.trans (by simpa using hb)

theorem lt_countP_lt_iff (v : α) : k < l.countP (· < v) ↔ u < v := by
  obtain ⟨hk, rfl⟩ := List.getElem?_eq_some_iff.mp hu
  rw [← countP_sorted, lt_countP_iff (pairwise_sorted l) _ hk]
  · simp
  · intro a b hab hb
    simpa using hab.trans_lt (by simpa using hb)

end Rank

theorem exists_sorted {l : List α} {k : ℕ} (hk : k < l.length) : ∃ v, (sorted l)[k]? = some v :=
  ⟨_, List.getElem?_eq_getElem ((length_sorted l).symm ▸ hk)⟩

theorem sorted_mono {l : List α} {i j : ℕ} {u v : α} (hu : (sorted l)[i]? = some u)
    (hv : (sorted l)[j]? = some v) (hij : i ≤ j) : u ≤ v :=
  (lt_countP_le_iff hu v).mp (hij.trans_lt ((lt_countP_le_iff hv v).mpr le_rfl))

/-- A value stands at a position of the sorted list when no more elements are smaller, and
more are not larger. -/
theorem sorted_eq_some_iff {l : List α} {k : ℕ} {v : α} :
    (sorted l)[k]? = some v ↔ l.countP (· < v) ≤ k ∧ k < l.countP (· ≤ v) := by
  constructor
  · intro hv
    exact ⟨Nat.not_lt.mp fun h ↦ lt_irrefl v ((lt_countP_lt_iff hv v).mp h),
      (lt_countP_le_iff hv v).mpr le_rfl⟩
  · rintro ⟨hlt, hle⟩
    obtain ⟨u, hu⟩ := exists_sorted (hle.trans_le List.countP_le_length)
    have huv : u ≤ v := (lt_countP_le_iff hu v).mp hle
    have hvu : ¬ u < v := fun h ↦ Nat.not_le.mpr ((lt_countP_lt_iff hu v).mpr h) hlt
    rw [hu, le_antisymm huv (not_lt.mp hvu)]

/-- The least element that more than `k` elements do not exceed. -/
theorem isLeast_iff {l : List α} {k : ℕ} {v : α} :
    IsLeast {w | w ∈ l ∧ k < l.countP (· ≤ w)} v ↔ (sorted l)[k]? = some v := by
  constructor
  · rintro ⟨⟨_, hle⟩, hleast⟩
    obtain ⟨u, hu⟩ := exists_sorted (hle.trans_le List.countP_le_length)
    have hvu : v ≤ u := hleast ⟨mem_of_sorted hu, (lt_countP_le_iff hu u).mpr le_rfl⟩
    rw [hu, le_antisymm ((lt_countP_le_iff hu v).mp hle) hvu]
  · intro hv
    refine ⟨⟨mem_of_sorted hv, (lt_countP_le_iff hv v).mpr le_rfl⟩, ?_⟩
    rintro w ⟨_, hw⟩
    exact (lt_countP_le_iff hv w).mp hw

end KernelBypass.Foundation.OrderStatistics
