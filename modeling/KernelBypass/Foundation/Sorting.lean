import Mathlib.Data.List.Sort

namespace KernelBypass.Foundation.Sorting

variable {α : Type} {cmp : α → α → Ordering} {l l' : List α}

structure Consistent (cmp : α → α → Ordering) (l : List α) : Prop where
  swap : ∀ a ∈ l, ∀ b ∈ l, cmp b a = (cmp a b).swap
  trans : ∀ a ∈ l, ∀ b ∈ l, ∀ c ∈ l, (cmp a b).isLE → (cmp b c).isLE → (cmp a c).isLE

def Sorted (cmp : α → α → Ordering) (l : List α) : Prop := l.Pairwise fun a b ↦ (cmp a b).isLE

/-- A sorting routine that is given a comparison function. It only has to sort what the
function orders. -/
structure Sorter (cmp : α → α → Ordering) where
  sort : List α → List α
  perm : ∀ l, (sort l).Perm l
  sorted : ∀ l, Consistent cmp l → Sorted cmp (sort l)

theorem Consistent.of_agrees {key : α → α → Ordering} [Std.TransCmp key]
    (h : ∀ a ∈ l, ∀ b ∈ l, cmp a b = key a b) : Consistent cmp l where
  swap a ha b hb := by
    rw [h a ha b hb, h b hb a ha]
    exact Std.OrientedCmp.eq_swap
  trans a ha b hb c hc hab hbc := by
    rw [h a ha b hb] at hab
    rw [h b hb c hc] at hbc
    rw [h a ha c hc]
    exact Std.TransCmp.isLE_trans hab hbc

theorem Consistent.isLE_total (h : Consistent cmp l) {a b : α} (ha : a ∈ l) (hb : b ∈ l) :
    (cmp a b).isLE ∨ (cmp b a).isLE := by
  rw [h.swap a ha b hb]
  cases cmp a b <;> decide

namespace Sorter

variable (S : Sorter cmp)

theorem length_sort : (S.sort l).length = l.length := (S.perm l).length_eq

theorem mem_sort {a : α} : a ∈ S.sort l ↔ a ∈ l := (S.perm l).mem_iff

theorem sort_of_length_le_one (h : l.length ≤ 1) : S.sort l = l := by
  cases l with
  | nil => exact List.perm_nil.mp (S.perm [])
  | cons a l =>
    obtain rfl := List.length_eq_zero_iff.mp (Nat.le_zero.mp (Nat.le_of_succ_le_succ h))
    exact List.perm_singleton.mp (S.perm [a])

end Sorter

def insertionSorter (cmp : α → α → Ordering) : Sorter cmp where
  sort := List.insertionSort fun a b ↦ (cmp a b).isLE
  perm := List.perm_insertionSort _
  sorted l hl := by
    let le : {a // a ∈ l} → {a // a ∈ l} → Prop := fun a b ↦ (cmp a.1 b.1).isLE
    have hmap : (l.attach.insertionSort le).map Subtype.val =
        l.insertionSort fun a b ↦ (cmp a b).isLE := by
      rw [List.map_insertionSort le (fun a b ↦ (cmp a b).isLE) Subtype.val l.attach
        (fun a _ b _ ↦ Iff.rfl), List.attach_map_subtype_val]
    have htotal : Std.Total le := ⟨fun a b ↦ hl.isLE_total a.2 b.2⟩
    have htrans : IsTrans _ le := ⟨fun a b c ↦ hl.trans a.1 a.2 b.1 b.2 c.1 c.2⟩
    rw [← hmap, Sorted, List.pairwise_map]
    exact List.pairwise_insertionSort le l.attach

end KernelBypass.Foundation.Sorting
