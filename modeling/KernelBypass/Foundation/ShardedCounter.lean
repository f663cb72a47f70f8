import KernelBypass.Foundation.Trace
import Mathlib.Algebra.BigOperators.Group.Finset.Basic
import Mathlib.Data.Nat.ModEq

namespace KernelBypass.Foundation.ShardedCounter

variable {ι κ : Type}

structure Increment (ι κ : Type) where
  shard : ι
  key : κ
  amount : ℕ

structure Adds (m : ℕ) (inc : Increment ι κ) (s t : ι → κ → ℕ) : Prop where
  here : t inc.shard inc.key ≡ s inc.shard inc.key + inc.amount [MOD m]
  elsewhere : ∀ i k, i ≠ inc.shard ∨ k ≠ inc.key → t i k = s i k

variable {m : ℕ} {s t : ι → κ → ℕ} {inc : Increment ι κ} [Fintype ι]

def total (s : ι → κ → ℕ) (k : κ) : ℕ := ∑ i, s i k

theorem Adds.total_other (h : Adds m inc s t) {k : κ} (hk : k ≠ inc.key) : total t k = total s k :=
  Finset.sum_congr rfl fun i _ ↦ h.elsewhere i k (Or.inr hk)

variable [DecidableEq ι]

theorem Adds.total_same (h : Adds m inc s t) :
    total t inc.key ≡ total s inc.key + inc.amount [MOD m] := by
  have hrest : ∑ i ∈ Finset.univ.erase inc.shard, t i inc.key =
      ∑ i ∈ Finset.univ.erase inc.shard, s i inc.key :=
    Finset.sum_congr rfl fun i hi ↦ h.elsewhere i inc.key (Or.inl (Finset.ne_of_mem_erase hi))
  rw [total, total, ← Finset.add_sum_erase _ _ (Finset.mem_univ inc.shard),
    ← Finset.add_sum_erase _ _ (Finset.mem_univ inc.shard), hrest, Nat.add_right_comm]
  exact h.here.add_right _

variable [DecidableEq κ]

def demand (incs : List (Increment ι κ)) (k : κ) : ℕ :=
  ((incs.filter (·.key = k)).map (·.amount)).sum

/-- However the increments are spread over the shards, the sum over the shards has
grown by what was asked for. -/
theorem trace_total {incs : List (Increment ι κ)} (h : Trace (Adds m) incs s t) (k : κ) :
    total t k ≡ total s k + demand incs k [MOD m] := by
  induction h with
  | nil s => rfl
  | @cons inc incs s t u hstep h ih =>
    by_cases hk : inc.key = k
    · subst hk
      have hdemand : demand (inc :: incs) inc.key = inc.amount + demand incs inc.key := by
        simp [demand]
      rw [hdemand, ← Nat.add_assoc]
      exact ih.trans (hstep.total_same.add_right _)
    · have hdemand : demand (inc :: incs) k = demand incs k := by
        simp [demand, hk]
      rw [hdemand, ← hstep.total_other (Ne.symm hk)]
      exact ih

end KernelBypass.Foundation.ShardedCounter
