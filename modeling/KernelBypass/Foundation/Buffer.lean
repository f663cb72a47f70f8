import Mathlib.Data.List.Basic

namespace KernelBypass.Foundation.Buffer

variable {α : Type}

def slice (p : List α) (i n : ℕ) : List α := (p.drop i).take n

def overwrite (p : List α) (i : ℕ) (v : List α) : List α :=
  p.take i ++ v ++ p.drop (i + v.length)

def exchange (p : List α) (a b n : ℕ) : List α :=
  overwrite (overwrite p a (slice p b n)) b (slice p a n)

/-- Where the content of position `j` comes from when two ranges change places. -/
def partner (a b n j : ℕ) : ℕ :=
  if a ≤ j ∧ j < a + n then j - a + b else if b ≤ j ∧ j < b + n then j - b + a else j

theorem partner_of_outside {a b n j : ℕ} (ha : j < a ∨ a + n ≤ j) (hb : j < b ∨ b + n ≤ j) :
    partner a b n j = j := by
  rw [partner, if_neg (by omega), if_neg (by omega)]

@[simp] theorem slice_zero (p : List α) (i : ℕ) : slice p i 0 = [] := by simp [slice]

theorem length_slice {p : List α} {i n : ℕ} (h : i + n ≤ p.length) : (slice p i n).length = n := by
  simp only [slice, List.length_take, List.length_drop]
  omega

theorem slice_add (p : List α) (i m n : ℕ) :
    slice p i (m + n) = slice p i m ++ slice p (i + m) n := by
  rw [slice, List.take_add, List.drop_drop]
  rfl

theorem slice_append_left {p q : List α} {i n : ℕ} (h : i + n ≤ p.length) :
    slice (p ++ q) i n = slice p i n := by
  rw [slice, List.drop_append_of_le_length (by omega), List.take_append_of_le_length, slice]
  rw [List.length_drop]
  omega

theorem slice_append_right (p q : List α) (i n : ℕ) :
    slice (p ++ q) (p.length + i) n = slice q i n := by
  rw [slice, List.drop_length_add_append, slice]

theorem slice_drop (p : List α) (k i n : ℕ) : slice (p.drop k) i n = slice p (k + i) n := by
  rw [slice, List.drop_drop, slice]

theorem slice_length (p : List α) : slice p 0 p.length = p := by simp [slice]

theorem length_overwrite {p v : List α} {i : ℕ} (h : i + v.length ≤ p.length) :
    (overwrite p i v).length = p.length := by
  simp only [overwrite, List.length_append, List.length_take, List.length_drop]
  omega

@[simp] theorem overwrite_nil (p : List α) (i : ℕ) : overwrite p i [] = p := by simp [overwrite]

theorem overwrite_set {p : List α} {i : ℕ} (h : i < p.length) (a : α) (v : List α) :
    overwrite (p.set i a) (i + 1) v = overwrite p i (a :: v) := by
  have hset : p.set i a = p.take i ++ [a] ++ p.drop (i + 1) := by
    rw [List.set_eq_take_append_cons_drop, if_pos h, List.append_assoc]
    rfl
  have htake : (p.set i a).take (i + 1) = p.take i ++ [a] := by
    rw [hset]
    exact List.take_left' (by simp only [List.length_append, List.length_take, List.length_singleton]; omega)
  rw [overwrite, htake, List.drop_set_of_lt (by omega), overwrite, List.length_cons,
    Nat.add_right_comm i 1, List.append_assoc (p.take i) [a] v]
  rfl

theorem length_exchange {p : List α} {a b n : ℕ} (hab : a + n ≤ b) (hb : b + n ≤ p.length) :
    (exchange p a b n).length = p.length := by
  have hsb := length_slice hb
  have hsa : (slice p a n).length = n := length_slice (by omega)
  have hlen : (overwrite p a (slice p b n)).length = p.length := length_overwrite (by omega)
  rw [exchange, length_overwrite (by omega), hlen]

theorem overwrite_slice {p : List α} {i n : ℕ} (h : i + n ≤ p.length) :
    overwrite p i (slice p i n) = p := by
  rw [overwrite, length_slice h, slice, List.append_assoc, ← List.drop_drop, List.take_append_drop,
    List.take_append_drop]

theorem exchange_of_eq {p : List α} {a b n : ℕ} (hab : a + n ≤ b) (hb : b + n ≤ p.length)
    (h : slice p a n = slice p b n) : exchange p a b n = p := by
  rw [exchange, ← h, overwrite_slice (by omega), h, overwrite_slice hb]

variable [Inhabited α]

/-- The content of one position; past the end it is the default value. -/
def cell (p : List α) (i : ℕ) : α := p.getD i default

theorem cell_eq_getElem {p : List α} {i : ℕ} (h : i < p.length) : cell p i = p[i] := by
  simp [cell, h]

theorem cell_append (p q : List α) (i : ℕ) :
    cell (p ++ q) i = if i < p.length then cell p i else cell q (i - p.length) := by
  split_ifs with h
  · simp [cell, List.getElem?_append_left h]
  · simp [cell, List.getElem?_append_right (Nat.le_of_not_lt h)]

theorem cell_append_left {p : List α} {i : ℕ} (h : i < p.length) (q : List α) :
    cell (p ++ q) i = cell p i := by
  rw [cell_append, if_pos h]

theorem cell_append_right (p q : List α) (i : ℕ) : cell (p ++ q) (p.length + i) = cell q i := by
  rw [cell_append, if_neg (by omega), Nat.add_sub_cancel_left]

theorem cell_drop (p : List α) (k i : ℕ) : cell (p.drop k) i = cell p (k + i) := by
  simp [cell]

theorem cell_take {p : List α} {k i : ℕ} (h : i < k) : cell (p.take k) i = cell p i := by
  simp [cell, List.getElem?_take_of_lt h]

theorem ext_cell {p q : List α} (hlen : p.length = q.length)
    (h : ∀ i < p.length, cell p i = cell q i) : p = q := by
  refine List.ext_getElem hlen fun i hp hq ↦ ?_
  have hi := h i hp
  rwa [cell_eq_getElem hp, cell_eq_getElem hq] at hi

theorem cell_slice {p : List α} {i n k : ℕ} (h : k < n) : cell (slice p i n) k = cell p (i + k) := by
  rw [slice, cell_take h, cell_drop]

theorem drop_eq_cell_cons {p : List α} {i : ℕ} (h : i < p.length) :
    p.drop i = cell p i :: p.drop (i + 1) := by
  rw [List.drop_eq_getElem_cons h, cell_eq_getElem h]

theorem slice_succ {p : List α} {i n : ℕ} (h : i < p.length) :
    slice p i (n + 1) = cell p i :: slice p (i + 1) n := by
  rw [slice, drop_eq_cell_cons h, List.take_succ_cons]
  rfl

theorem slice_congr {p q : List α} {i j n : ℕ} (hp : i + n ≤ p.length) (hq : j + n ≤ q.length)
    (h : ∀ k < n, cell p (i + k) = cell q (j + k)) : slice p i n = slice q j n := by
  apply ext_cell
  · rw [length_slice hp, length_slice hq]
  · intro k hk
    rw [length_slice hp] at hk
    rw [cell_slice hk, cell_slice hk, h k hk]

theorem drop_congr {p q : List α} {i : ℕ} (hlen : p.length = q.length)
    (h : ∀ j, i ≤ j → cell p j = cell q j) : p.drop i = q.drop i := by
  refine ext_cell (by rw [List.length_drop, List.length_drop, hlen]) fun k _ ↦ ?_
  rw [cell_drop, cell_drop, h _ (Nat.le_add_right i k)]

section Overwrite

variable {p v : List α} {i : ℕ}

theorem cell_overwrite (h : i + v.length ≤ p.length) (j : ℕ) :
    cell (overwrite p i v) j =
      if i ≤ j ∧ j < i + v.length then cell v (j - i) else cell p j := by
  have hi : (p.take i).length = i := by simp only [List.length_take]; omega
  rw [overwrite, List.append_assoc, cell_append, hi, cell_append, cell_drop]
  by_cases hlow : j < i
  · rw [if_pos hlow, if_neg (by omega), cell_take hlow]
  · by_cases hin : j < i + v.length
    · rw [if_neg hlow, if_pos (by omega), if_pos (by omega)]
    · rw [if_neg hlow, if_neg (by omega), if_neg (by omega)]
      congr 1
      omega

theorem slice_overwrite_self (h : i + v.length ≤ p.length) :
    slice (overwrite p i v) i v.length = v := by
  have hlen := length_overwrite h
  apply ext_cell
  · exact length_slice (by omega)
  · intro k hk
    rw [length_slice (by omega)] at hk
    rw [cell_slice hk, cell_overwrite h, if_pos (by omega), Nat.add_sub_cancel_left]

theorem slice_overwrite_of_disjoint (h : i + v.length ≤ p.length) {j n : ℕ}
    (hn : j + n ≤ p.length) (hj : j + n ≤ i ∨ i + v.length ≤ j) :
    slice (overwrite p i v) j n = slice p j n := by
  refine slice_congr (by rwa [length_overwrite h]) hn fun k hk ↦ ?_
  rw [cell_overwrite h, if_neg (by omega)]

theorem overwrite_comm {u : List α} {j : ℕ} (hi : i + v.length ≤ p.length)
    (hj : j + u.length ≤ p.length) (hd : i + v.length ≤ j ∨ j + u.length ≤ i) :
    overwrite (overwrite p i v) j u = overwrite (overwrite p j u) i v := by
  have hlen := length_overwrite hi
  have hlen' := length_overwrite hj
  apply ext_cell
  · rw [length_overwrite (by omega), hlen, length_overwrite (by omega), hlen']
  · intro k _
    rw [cell_overwrite (by omega), cell_overwrite hi, cell_overwrite (by omega), cell_overwrite hj]
    split_ifs
    · omega
    · rfl
    · rfl
    · rfl

end Overwrite

section Exchange

variable {p : List α} {a b n : ℕ}

theorem cell_exchange (hab : a + n ≤ b) (hb : b + n ≤ p.length) (j : ℕ) :
    cell (exchange p a b n) j = cell p (partner a b n j) := by
  have hsb := length_slice hb
  have hsa : (slice p a n).length = n := length_slice (by omega)
  have hlen : (overwrite p a (slice p b n)).length = p.length := length_overwrite (by omega)
  rw [exchange, cell_overwrite (by omega), cell_overwrite (by omega), hsa, hsb, partner]
  by_cases hja : a ≤ j ∧ j < a + n
  · rw [if_neg (by omega), if_pos hja, if_pos hja, cell_slice (by omega)]
    congr 1
    omega
  · by_cases hjb : b ≤ j ∧ j < b + n
    · rw [if_pos hjb, if_neg hja, if_pos hjb, cell_slice (by omega)]
      congr 1
      omega
    · rw [if_neg hjb, if_neg hja, if_neg hja, if_neg hjb]

theorem exchange_comm (hab : a + n ≤ b) (hb : b + n ≤ p.length) :
    exchange p b a n = exchange p a b n := by
  have hsb := length_slice hb
  have hsa : (slice p a n).length = n := length_slice (by omega)
  exact overwrite_comm (by omega) (by omega) (by omega)

theorem slice_exchange_left (hab : a + n ≤ b) (hb : b + n ≤ p.length) :
    slice (exchange p a b n) a n = slice p b n := by
  refine slice_congr (by rw [length_exchange hab hb]; omega) hb fun k hk ↦ ?_
  rw [cell_exchange hab hb, partner, if_pos (by omega)]
  congr 1
  omega

theorem slice_exchange_right (hab : a + n ≤ b) (hb : b + n ≤ p.length) :
    slice (exchange p a b n) b n = slice p a n := by
  refine slice_congr (by rwa [length_exchange hab hb]) (by omega) fun k hk ↦ ?_
  rw [cell_exchange hab hb, partner, if_neg (by omega), if_pos (by omega)]
  congr 1
  omega

theorem cell_exchange_of_outside (hab : a + n ≤ b) (hb : b + n ≤ p.length) {j : ℕ}
    (hja : j < a ∨ a + n ≤ j) (hjb : j < b ∨ b + n ≤ j) :
    cell (exchange p a b n) j = cell p j := by
  rw [cell_exchange hab hb, partner_of_outside hja hjb]

theorem slice_exchange_of_disjoint (hab : a + n ≤ b) (hb : b + n ≤ p.length) {j m : ℕ}
    (hm : j + m ≤ p.length) (hja : j + m ≤ a ∨ a + n ≤ j) (hjb : j + m ≤ b ∨ b + n ≤ j) :
    slice (exchange p a b n) j m = slice p j m := by
  refine slice_congr (by rwa [length_exchange hab hb]) hm fun k hk ↦ ?_
  exact cell_exchange_of_outside hab hb (by omega) (by omega)

end Exchange

end KernelBypass.Foundation.Buffer
