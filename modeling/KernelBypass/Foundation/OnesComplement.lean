import KernelBypass.Foundation.Buffer
import Mathlib.Data.Nat.ModEq
import Mathlib.Algebra.BigOperators.Group.List.Basic

namespace KernelBypass.Foundation.OnesComplement

open Buffer

section Carry

variable {m : ℕ}

def add (m a b : ℕ) : ℕ := if a + b ≤ m then a + b else a + b - m

def sum (m : ℕ) (l : List ℕ) : ℕ := l.foldl (add m) 0

theorem add_le {a b : ℕ} (ha : a ≤ m) (hb : b ≤ m) : add m a b ≤ m := by
  unfold add
  split_ifs <;> omega

theorem add_modEq (a b : ℕ) : add m a b ≡ a + b [MOD m] := by
  unfold add
  split_ifs with h
  · rfl
  · have hs : a + b - m + m = a + b := by omega
    simpa only [hs] using (Nat.add_modEq_right (a := a + b - m) (n := m)).symm

theorem add_eq_zero_iff (a b : ℕ) (hm : 0 < m) : add m a b = 0 ↔ a + b = 0 := by
  unfold add
  split_ifs <;> omega

theorem foldl_spec (hm : 0 < m) (l : List ℕ) (hl : ∀ w ∈ l, w ≤ m) (a : ℕ) (ha : a ≤ m) :
    l.foldl (add m) a ≤ m ∧ l.foldl (add m) a ≡ a + l.sum [MOD m] ∧
      (l.foldl (add m) a = 0 ↔ a + l.sum = 0) := by
  induction l generalizing a with
  | nil => exact ⟨ha, by simp [Nat.ModEq.refl], by simp⟩
  | cons w l ih =>
    have hw : w ≤ m := hl w List.mem_cons_self
    obtain ⟨hle, hmod, hzero⟩ := ih (fun v hv ↦ hl v (List.mem_cons_of_mem w hv))
      (add m a w) (add_le ha hw)
    have hadd := add_eq_zero_iff a w hm
    refine ⟨hle, ?_, ?_⟩
    · rw [List.foldl_cons, List.sum_cons, ← Nat.add_assoc]
      exact hmod.trans ((add_modEq a w).add_right _)
    · rw [List.foldl_cons, List.sum_cons, hzero]
      omega

/-- A sum is all ones exactly when the plain sum is a non-zero multiple of the
all-ones word: the other representation of zero needs every word to be zero. -/
theorem sum_eq_top_iff (hm : 0 < m) {l : List ℕ} (hl : ∀ w ∈ l, w ≤ m) :
    sum m l = m ↔ l.sum ≠ 0 ∧ m ∣ l.sum := by
  obtain ⟨hle, hmod, hzero⟩ := foldl_spec hm l hl 0 (Nat.zero_le m)
  rw [Nat.zero_add] at hmod hzero
  change l.foldl (add m) 0 = m ↔ _
  constructor
  · intro h
    rw [h] at hmod hzero
    exact ⟨fun hs ↦ by omega, (Nat.modEq_zero_iff_dvd.mp (hmod.symm.trans (by simp [Nat.ModEq])))⟩
  · rintro ⟨hne, hdvd⟩
    have hd : m ∣ l.foldl (add m) 0 :=
      Nat.modEq_zero_iff_dvd.mp (hmod.trans (Nat.modEq_zero_iff_dvd.mpr hdvd))
    exact Nat.le_antisymm hle (Nat.le_of_dvd (by omega) hd)

theorem sum_le (hm : 0 < m) {l : List ℕ} (hl : ∀ w ∈ l, w ≤ m) : sum m l ≤ m :=
  (foldl_spec hm l hl 0 (Nat.zero_le m)).1

theorem sum_modEq (hm : 0 < m) {l : List ℕ} (hl : ∀ w ∈ l, w ≤ m) : sum m l ≡ l.sum [MOD m] := by
  have h := (foldl_spec hm l hl 0 (Nat.zero_le m)).2.1
  rwa [Nat.zero_add] at h

def SameValue (m a b : ℕ) : Prop := a = b ∨ a = 0 ∧ b = m ∨ a = m ∧ b = 0

instance (m a b : ℕ) : Decidable (SameValue m a b) := inferInstanceAs (Decidable (_ ∨ _))

theorem sameValue_iff {a b : ℕ} (ha : a ≤ m) (hb : b ≤ m) :
    SameValue m a b ↔ a ≡ b [MOD m] := by
  constructor
  · rintro (rfl | ⟨rfl, rfl⟩ | ⟨rfl, rfl⟩)
    · rfl
    · simp [Nat.ModEq]
    · simp [Nat.ModEq]
  · intro h
    by_cases ham : a = m
    · by_cases hbm : b = m
      · exact Or.inl (ham.trans hbm.symm)
      · rw [ham, Nat.ModEq, Nat.mod_self, Nat.mod_eq_of_lt (by omega)] at h
        exact Or.inr (Or.inr ⟨ham, h.symm⟩)
    · by_cases hbm : b = m
      · rw [hbm, Nat.ModEq, Nat.mod_self, Nat.mod_eq_of_lt (by omega)] at h
        exact Or.inr (Or.inl ⟨h, hbm⟩)
      · exact Or.inl (h.eq_of_lt_of_lt (by omega) (by omega))

/-- End-around carries or not, the sum depends on the plain sum only. -/
theorem sum_congr (hm : 0 < m) {l k : List ℕ} (hl : ∀ w ∈ l, w ≤ m) (hk : ∀ w ∈ k, w ≤ m)
    (h : l.sum = k.sum) : sum m l = sum m k := by
  obtain ⟨hle, hmod, hzero⟩ := foldl_spec hm l hl 0 (Nat.zero_le m)
  obtain ⟨hle', hmod', hzero'⟩ := foldl_spec hm k hk 0 (Nat.zero_le m)
  rw [h] at hmod hzero
  change l.foldl (add m) 0 = k.foldl (add m) 0
  rcases (sameValue_iff hle hle').mpr (hmod.trans hmod'.symm) with heq | ⟨hl, hk⟩ | ⟨hl, hk⟩
  · exact heq
  · exact hl.trans (hzero'.mpr (hzero.mp hl)).symm
  · exact (hzero.mpr (hzero'.mp hk)).trans hk.symm

/-- The incremental update of a checksum when a word changes, `~(~c + ~old + new)`. -/
def update (m c old new : ℕ) : ℕ := m - add m (add m (m - c) (m - old)) new

theorem update_le (c old new : ℕ) : update m c old new ≤ m := Nat.sub_le _ _

theorem update_modEq {c old new : ℕ} (hc : c ≤ m) (hold : old ≤ m) (hnew : new ≤ m) :
    update m c old new + new ≡ c + old [MOD m] := by
  have hle : add m (add m (m - c) (m - old)) new ≤ m :=
    add_le (add_le (Nat.sub_le _ _) (Nat.sub_le _ _)) hnew
  have hsum : add m (add m (m - c) (m - old)) new ≡ m - c + (m - old) + new [MOD m] :=
    (add_modEq _ _).trans ((add_modEq _ _).add_right _)
  have hcancel : update m c old new + new + add m (add m (m - c) (m - old)) new ≡
      c + old + add m (add m (m - c) (m - old)) new [MOD m] :=
    calc update m c old new + new + add m (add m (m - c) (m - old)) new
        = m + new := by
          unfold update
          omega
      _ ≡ m + new + m [MOD m] := by simp [Nat.ModEq]
      _ = c + old + (m - c + (m - old) + new) := by omega
      _ ≡ c + old + add m (add m (m - c) (m - old)) new [MOD m] := hsum.symm.add_left _
  exact hcancel.add_right_cancel' _

end Carry

/-- The 16-bit words of a message, high byte first; a last odd byte is padded
with a zero byte. -/
def words : List UInt8 → List ℕ
  | [] => []
  | [a] => [256 * a.toNat]
  | a :: b :: l => (256 * a.toNat + b.toNat) :: words l

def total (l : List UInt8) : ℕ := (words l).sum

/-- The receiver's test: the sum over a message, its checksum field included, is
all ones. -/
def Verifies (l : List UInt8) : Prop := sum 0xFFFF (words l) = 0xFFFF

instance (l : List UInt8) : Decidable (Verifies l) := inferInstanceAs (Decidable (_ = _))

theorem words_le (l : List UInt8) : ∀ w ∈ words l, w ≤ 0xFFFF := by
  induction l using words.induct with
  | case1 => simp [words]
  | case2 a =>
    have ha := a.toNat_lt
    simp only [words, List.mem_singleton, forall_eq]
    omega
  | case3 a b l ih =>
    have ha := a.toNat_lt
    have hb := b.toNat_lt
    simp only [words, List.mem_cons, forall_eq_or_imp]
    exact ⟨by omega, ih⟩

theorem verifies_iff (l : List UInt8) : Verifies l ↔ total l ≠ 0 ∧ 0xFFFF ∣ total l :=
  sum_eq_top_iff (by decide) (words_le l)

def folded (l : List UInt8) : ℕ := sum 0xFFFF (words l)

theorem folded_congr {l k : List UInt8} (h : total l = total k) : folded l = folded k :=
  sum_congr (by decide) (words_le l) (words_le k) h

def checksum (l : List UInt8) : ℕ := 0xFFFF - sum 0xFFFF (words l)

theorem checksum_le (l : List UInt8) : checksum l ≤ 0xFFFF := Nat.sub_le _ _

theorem dvd_checksum_add_total (l : List UInt8) : 0xFFFF ∣ checksum l + total l := by
  have hle : sum 0xFFFF (words l) ≤ 0xFFFF := sum_le (by decide) (words_le l)
  have hmod : sum 0xFFFF (words l) ≡ total l [MOD 0xFFFF] := sum_modEq (by decide) (words_le l)
  unfold checksum
  unfold Nat.ModEq at hmod
  omega

@[simp] theorem total_nil : total [] = 0 := rfl

theorem total_cons_cons (a b : UInt8) (l : List UInt8) :
    total (a :: b :: l) = 256 * a.toNat + b.toNat + total l := by
  simp [total, words]

theorem total_append {l : List UInt8} (h : l.length % 2 = 0) (r : List UInt8) :
    total (l ++ r) = total l + total r := by
  induction l using words.induct with
  | case1 => simp
  | case2 a => simp at h
  | case3 a b l ih =>
    have hl : l.length % 2 = 0 := by simp only [List.length_cons] at h; omega
    rw [List.cons_append, List.cons_append, total_cons_cons, total_cons_cons, ih hl]
    omega

section Rewriting

variable {p : List UInt8}

theorem total_slice_split {i k n m : ℕ} (hk : k % 2 = 0) (hn : n % 2 = 0)
    (h : i + (k + n + m) ≤ p.length) :
    total (slice p i (k + n + m)) =
      total (slice p i k) + total (slice p (i + k) n) + total (slice p (i + k + n) m) := by
  rw [slice_add, slice_add, total_append, total_append, Nat.add_assoc i k n]
  · rwa [length_slice (by omega)]
  · rw [List.length_append, length_slice (by omega), length_slice (by omega)]
    omega

theorem total_overwrite {v : List UInt8} {i k m : ℕ} (hk : k % 2 = 0) (hv : v.length % 2 = 0)
    (h : i + (k + v.length + m) ≤ p.length) :
    total (slice (overwrite p (i + k) v) i (k + v.length + m)) +
        total (slice p (i + k) v.length) =
      total (slice p i (k + v.length + m)) + total v := by
  have hroom : i + k + v.length ≤ p.length := by omega
  have hlen := length_overwrite hroom
  rw [total_slice_split hk hv h, total_slice_split hk hv (by omega),
    slice_overwrite_of_disjoint hroom (by omega) (by omega), slice_overwrite_self hroom,
    slice_overwrite_of_disjoint hroom (by omega) (by omega)]
  omega

theorem total_exchange {i k n d m : ℕ} (hk : k % 2 = 0) (hn : n % 2 = 0) (hd : d % 2 = 0)
    (h : i + (k + (n + d + n) + m) ≤ p.length) :
    total (slice (exchange p (i + k) (i + k + n + d) n) i (k + (n + d + n) + m)) =
      total (slice p i (k + (n + d + n) + m)) := by
  have hab : i + k + n ≤ i + k + n + d := by omega
  have hb : i + k + n + d + n ≤ p.length := by omega
  have hlen := length_exchange hab hb
  rw [total_slice_split hk (by omega) h, total_slice_split hk (by omega) (by omega),
    total_slice_split hn hd (by omega), total_slice_split hn hd (by omega),
    slice_exchange_left hab hb, slice_exchange_right hab hb,
    slice_exchange_of_disjoint hab hb (by omega) (by omega) (by omega),
    slice_exchange_of_disjoint hab hb (by omega) (by omega) (by omega),
    slice_exchange_of_disjoint hab hb (by omega) (by omega) (by omega)]
  omega

end Rewriting

end KernelBypass.Foundation.OnesComplement
