import Mathlib.Data.Nat.ModEq
import Mathlib.Tactic.Ring

namespace KernelBypass.Foundation

inductive ByteOrder
  | little
  | big
  deriving DecidableEq, Repr

namespace ByteOrder

variable (order : ByteOrder)

def word16 (a b : UInt8) : UInt16 :=
  match order with
  | little => UInt16.ofNat (256 * b.toNat + a.toNat)
  | big => UInt16.ofNat (256 * a.toNat + b.toNat)

def bytes16 (v : UInt16) : List UInt8 :=
  match order with
  | little => [UInt8.ofNat (v.toNat % 256), UInt8.ofNat (v.toNat / 256)]
  | big => [UInt8.ofNat (v.toNat / 256), UInt8.ofNat (v.toNat % 256)]

def swap16 (v : UInt16) : UInt16 := UInt16.ofNat (256 * (v.toNat % 256) + v.toNat / 256)

def toBig16 (v : UInt16) : UInt16 :=
  match order with
  | little => swap16 v
  | big => v

@[simp] theorem length_bytes16 (v : UInt16) : (order.bytes16 v).length = 2 := by
  cases order <;> rfl

theorem bytes16_zero : order.bytes16 0 = [0, 0] := by
  cases order <;> rfl

theorem toNat_word16 (a b : UInt8) : (order.word16 a b).toNat =
    match order with
    | little => 256 * b.toNat + a.toNat
    | big => 256 * a.toNat + b.toNat := by
  have ha := a.toNat_lt
  have hb := b.toNat_lt
  cases order <;> simp only [word16, UInt16.toNat_ofNat'] <;> omega

theorem word16_injective {a b c d : UInt8} (h : order.word16 a b = order.word16 c d) :
    a = c ∧ b = d := by
  have hn := congrArg UInt16.toNat h
  have ha := a.toNat_lt
  have hb := b.toNat_lt
  have hc := c.toNat_lt
  have hd := d.toNat_lt
  cases order <;> simp only [toNat_word16] at hn <;>
    exact ⟨UInt8.toNat_inj.mp (by omega), UInt8.toNat_inj.mp (by omega)⟩

theorem word16_eq_toBig16 (hi lo : UInt8) :
    order.toBig16 (UInt16.ofNat (256 * hi.toNat + lo.toNat)) = order.word16 hi lo := by
  have hh := hi.toNat_lt
  have hl := lo.toNat_lt
  cases order with
  | little =>
    have hv : (UInt16.ofNat (256 * hi.toNat + lo.toNat)).toNat = 256 * hi.toNat + lo.toNat := by
      simp only [UInt16.toNat_ofNat']
      omega
    have hmod : (256 * hi.toNat + lo.toNat) % 256 = lo.toNat := by omega
    have hdiv : (256 * hi.toNat + lo.toNat) / 256 = hi.toNat := by omega
    simp only [toBig16, swap16, word16, hv, hmod, hdiv]
  | big => rfl

theorem toNat_toBig16_word16 (a b : UInt8) :
    (order.toBig16 (order.word16 a b)).toNat = 256 * a.toNat + b.toNat := by
  have ha := a.toNat_lt
  have hb := b.toNat_lt
  have hn := order.toNat_word16 a b
  cases order with
  | little =>
    have hmod : (256 * b.toNat + a.toNat) % 256 = a.toNat := by omega
    have hdiv : (256 * b.toNat + a.toNat) / 256 = b.toNat := by omega
    simp only [toBig16, swap16, hn, hmod, hdiv, UInt16.toNat_ofNat']
    omega
  | big => exact hn

theorem toNat_high (v : UInt16) : (UInt8.ofNat (v.toNat / 256)).toNat = v.toNat / 256 := by
  have hv := v.toNat_lt
  rw [UInt8.toNat_ofNat']
  omega

theorem toNat_low (v : UInt16) : (UInt8.ofNat (v.toNat % 256)).toNat = v.toNat % 256 := by
  rw [UInt8.toNat_ofNat']
  omega

theorem word16_high_low (v : UInt16) :
    order.word16 (UInt8.ofNat (v.toNat / 256)) (UInt8.ofNat (v.toNat % 256)) = order.toBig16 v := by
  rw [← word16_eq_toBig16, toNat_high, toNat_low, Nat.div_add_mod, UInt16.ofNat_toNat]

theorem toBig16_toBig16 (v : UInt16) : order.toBig16 (order.toBig16 v) = v := by
  apply UInt16.toNat_inj.mp
  rw [← order.word16_high_low v, toNat_toBig16_word16, toNat_high, toNat_low, Nat.div_add_mod]

theorem exists_word16 (v : UInt16) : ∃ a b, order.word16 a b = v :=
  ⟨_, _, (order.word16_high_low (order.toBig16 v)).trans (order.toBig16_toBig16 v)⟩

theorem bytes16_word16 (a b : UInt8) : order.bytes16 (order.word16 a b) = [a, b] := by
  have ha := a.toNat_lt
  have hb := b.toNat_lt
  cases order <;> simp only [bytes16, toNat_word16, List.cons.injEq, and_true] <;>
    constructor <;> apply UInt8.toNat_inj.mp <;> simp only [UInt8.toNat_ofNat'] <;> omega

theorem bytes16_toBig16 (v : UInt16) : order.bytes16 (order.toBig16 v) = big.bytes16 v := by
  rw [← word16_high_low, bytes16_word16]
  rfl

section Words

def word32 (a b c d : UInt8) : UInt32 :=
  match order with
  | little => UInt32.ofNat (a.toNat + 256 * (b.toNat + 256 * (c.toNat + 256 * d.toNat)))
  | big => UInt32.ofNat (d.toNat + 256 * (c.toNat + 256 * (b.toNat + 256 * a.toNat)))

def bytes32 (v : UInt32) : List UInt8 :=
  let b (k : ℕ) := UInt8.ofNat (v.toNat / 256 ^ k)
  match order with
  | little => [b 0, b 1, b 2, b 3]
  | big => [b 3, b 2, b 1, b 0]

def pack32 (l : List UInt32) : List UInt8 := l.flatMap order.bytes32

def unpack32 : List UInt8 → List UInt32
  | a :: b :: c :: d :: l => order.word32 a b c d :: unpack32 l
  | _ => []

theorem ofNat_digits (v : UInt32) : UInt32.ofNat ((UInt8.ofNat (v.toNat / 256 ^ 0)).toNat +
    256 * ((UInt8.ofNat (v.toNat / 256 ^ 1)).toNat + 256 * ((UInt8.ofNat (v.toNat / 256 ^ 2)).toNat +
      256 * (UInt8.ofNat (v.toNat / 256 ^ 3)).toNat))) = v := by
  have hv := v.toNat_lt
  apply UInt32.toNat_inj.mp
  simp only [UInt8.toNat_ofNat', UInt32.toNat_ofNat']
  omega

theorem unpack32_bytes32_append (v : UInt32) (l : List UInt8) :
    order.unpack32 (order.bytes32 v ++ l) = v :: order.unpack32 l := by
  cases order <;> exact congrArg (· :: _) (ofNat_digits v)

theorem unpack32_pack32 (l : List UInt32) : order.unpack32 (order.pack32 l) = l := by
  induction l with
  | nil => rfl
  | cons v l ih => rw [pack32, List.flatMap_cons, unpack32_bytes32_append, ← pack32, ih]

theorem length_bytes32 (v : UInt32) : (order.bytes32 v).length = 4 := by
  cases order <;> rfl

theorem length_pack32 (l : List UInt32) : (order.pack32 l).length = 4 * l.length := by
  induction l with
  | nil => rfl
  | cons v l ih =>
    rw [pack32, List.flatMap_cons, List.length_append, length_bytes32, ← pack32, ih,
      List.length_cons]
    omega

end Words

end ByteOrder

end KernelBypass.Foundation
