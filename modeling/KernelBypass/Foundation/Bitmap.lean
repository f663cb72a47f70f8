import Mathlib.Data.BitVec

namespace KernelBypass.Foundation.Bitmap

variable (x a b : UInt32)

/-- Whether a bit is set. As with the shifts of the machine only the lower five bits of
its number count. -/
def has (x a : UInt32) : Bool := x.toBitVec.getLsbD (a.toNat % 32)

theorem toBitVec_bit : ((1 : UInt32) <<< a).toBitVec = BitVec.twoPow 32 (a.toNat % 32) := by
  have hmod : (a.toBitVec % 32).toNat = a.toNat % 32 := BitVec.toNat_umod
  rw [UInt32.toBitVec_shiftLeft, BitVec.twoPow_eq, BitVec.shiftLeft_eq', hmod]
  rfl

theorem twoPow_ne_zero : BitVec.twoPow 32 (a.toNat % 32) ≠ 0#32 := by
  intro h
  have hbit := congrArg (fun v ↦ v.getLsbD (a.toNat % 32)) h
  simp [Nat.mod_lt] at hbit

theorem and_bit_ne_zero_iff : x &&& 1 <<< a ≠ 0 ↔ has x a := by
  rw [ne_eq, ← UInt32.toBitVec_inj, UInt32.toBitVec_and, toBitVec_bit, BitVec.and_twoPow, has]
  split
  · rename_i h
    exact iff_of_true (twoPow_ne_zero a) h
  · rename_i h
    exact iff_of_false (fun hne ↦ hne rfl) h

theorem bit_and_eq_zero_iff : 1 <<< a &&& x = 0 ↔ ¬ has x a := by
  rw [← and_bit_ne_zero_iff, not_not, UInt32.and_comm]

theorem has_or_bit : has (x ||| 1 <<< b) a = (has x a || a.toNat % 32 = b.toNat % 32) := by
  have ha : a.toNat % 32 < 32 := Nat.mod_lt _ (by decide)
  have hb : b.toNat % 32 < 32 := Nat.mod_lt _ (by decide)
  rw [has, UInt32.toBitVec_or, toBitVec_bit, BitVec.getLsbD_or, BitVec.getLsbD_twoPow, has]
  simp [ha, hb, eq_comm]

theorem has_and_not_bit :
    has (x &&& ~~~(1 <<< b)) a = (has x a && a.toNat % 32 ≠ b.toNat % 32) := by
  have ha : a.toNat % 32 < 32 := Nat.mod_lt _ (by decide)
  have hb : b.toNat % 32 < 32 := Nat.mod_lt _ (by decide)
  rw [has, UInt32.toBitVec_and, UInt32.toBitVec_not, toBitVec_bit, BitVec.getLsbD_and,
    BitVec.getLsbD_not, BitVec.getLsbD_twoPow, has]
  simp [ha, hb, eq_comm]

theorem has_and_not_bit_self : has (x &&& ~~~(1 <<< a)) a = false := by
  rw [has_and_not_bit, decide_eq_false (not_not.mpr rfl), Bool.and_false]

theorem or_bit_and_not_bit {x a : UInt32} (h : has x a = false) :
    (x ||| 1 <<< a) &&& ~~~(1 <<< a) = x := by
  apply UInt32.toBitVec_inj.mp
  apply BitVec.eq_of_getLsbD_eq
  intro i hi
  rw [UInt32.toBitVec_and, UInt32.toBitVec_not, UInt32.toBitVec_or, toBitVec_bit,
    BitVec.getLsbD_and, BitVec.getLsbD_or, BitVec.getLsbD_not, BitVec.getLsbD_twoPow]
  by_cases heq : a.toNat % 32 = i
  · subst heq
    rw [has] at h
    simp [h]
  · simp [hi, heq]

end KernelBypass.Foundation.Bitmap
