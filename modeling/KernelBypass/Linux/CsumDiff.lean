import KernelBypass.Foundation.ByteOrder
import Mathlib.Algebra.BigOperators.Group.List.Basic

namespace KernelBypass.Linux

open Foundation

/-- The kernel helper `bpf_csum_diff`: the bytes removed, the bytes added and the
seed. The two size arguments are the lengths of the buffers. -/
abbrev CsumDiff := List UInt8 → List UInt8 → UInt32 → Int64

def einval : Int64 := 22

variable (order : ByteOrder)

def words32 : List UInt8 → List ℕ
  | a :: b :: c :: d :: l =>
    (match order with
      | .little => a.toNat + 256 * (b.toNat + 256 * (c.toNat + 256 * d.toNat))
      | .big => d.toNat + 256 * (c.toNat + 256 * (b.toNat + 256 * a.toNat))) :: words32 l
  | _ => []

/-- What `bpf_helper_defs.h` says of the helper: for sizes that are multiples of
four a 32-bit one's-complement difference, otherwise a negative error. -/
structure CsumDiffContract (csumDiff : CsumDiff) : Prop where
  aligned : ∀ old new seed, old.length % 4 = 0 → new.length % 4 = 0 →
    ∃ v : UInt32, csumDiff old new seed = v.toUInt64.toInt64 ∧
      v.toNat + (words32 order old).sum ≡ seed.toNat + (words32 order new).sum [MOD 0xFFFFFFFF]
  misaligned : ∀ old new seed, ¬ (old.length % 4 = 0 ∧ new.length % 4 = 0) →
    csumDiff old new seed = -einval

def plainCsumDiff : CsumDiff := fun old new seed ↦
  if old.length % 4 = 0 ∧ new.length % 4 = 0 then
    (UInt32.ofNat ((seed.toNat + (words32 order new).sum +
      ((words32 order old).map (0xFFFFFFFF - ·)).sum) % 0xFFFFFFFF)).toUInt64.toInt64
  else -einval

theorem words32_le (l : List UInt8) : ∀ w ∈ words32 order l, w ≤ 0xFFFFFFFF := by
  induction l using words32.induct with
  | case1 a b c d l ih =>
    have ha := a.toNat_lt
    have hb := b.toNat_lt
    have hc := c.toNat_lt
    have hd := d.toNat_lt
    simp only [words32, List.mem_cons, forall_eq_or_imp]
    refine ⟨?_, ih⟩
    cases order <;> dsimp only <;> omega
  | case2 l hl =>
    rw [words32]
    · simp
    · exact hl

theorem sum_complement {m : ℕ} {l : List ℕ} (h : ∀ w ∈ l, w ≤ m) :
    (l.map (m - ·)).sum + l.sum = m * l.length := by
  induction l with
  | nil => rfl
  | cons w l ih =>
    have hw := h w List.mem_cons_self
    have hl := ih (fun v hv ↦ h v (List.mem_cons_of_mem w hv))
    simp only [List.map_cons, List.sum_cons, List.length_cons, Nat.mul_succ]
    omega

theorem plainCsumDiff_contract : CsumDiffContract order (plainCsumDiff order) where
  aligned := by
    intro old new seed hold hnew
    refine ⟨_, if_pos ⟨hold, hnew⟩, ?_⟩
    have hsum := sum_complement (words32_le order old)
    generalize hx : seed.toNat + (words32 order new).sum +
      ((words32 order old).map (0xFFFFFFFF - ·)).sum = x
    have hv : (UInt32.ofNat (x % 0xFFFFFFFF)).toNat = x % 0xFFFFFFFF := by
      simp only [UInt32.toNat_ofNat']
      omega
    rw [hv]
    calc x % 0xFFFFFFFF + (words32 order old).sum
        ≡ x + (words32 order old).sum [MOD 0xFFFFFFFF] := (Nat.mod_modEq x _).add_right _
      _ = seed.toNat + (words32 order new).sum + 0xFFFFFFFF * (words32 order old).length := by omega
      _ ≡ seed.toNat + (words32 order new).sum [MOD 0xFFFFFFFF] := by simp [Nat.ModEq]
  misaligned := fun old new seed h ↦ if_neg h

section Unrestricted

def words16 : List UInt8 → List ℕ
  | a :: b :: l => (order.word16 a b).toNat :: words16 l
  | _ => []

/-- The helper of kernels that take two bytes as well: some 32-bit representative of
the difference. -/
structure CsumDiff16Contract (csumDiff : CsumDiff) : Prop where
  pair : ∀ old new seed, old.length = 2 → new.length = 2 →
    ∃ v : UInt32, csumDiff old new seed = v.toUInt64.toInt64 ∧
      v.toNat + (words16 order old).sum ≡ seed.toNat + (words16 order new).sum [MOD 0xFFFF]

def halfCsumDiff (half : UInt16) : CsumDiff := fun old new seed ↦
  (UInt32.ofNat (0x10000 * half.toNat + (seed.toNat + (words16 order new).sum +
    (0xFFFF - (words16 order old).sum) + (0xFFFF - half.toNat)) % 0xFFFF)).toUInt64.toInt64

theorem halfCsumDiff_contract (half : UInt16) :
    CsumDiff16Contract order (halfCsumDiff order half) where
  pair := by
    intro old new seed hold _
    refine ⟨_, rfl, ?_⟩
    obtain ⟨a, b, rfl⟩ := List.length_eq_two.mp hold
    have hword := (order.word16 a b).toNat_lt
    have hhalf := half.toNat_lt
    have hsum : (words16 order [a, b]).sum = (order.word16 a b).toNat := by simp [words16]
    rw [hsum, UInt32.toNat_ofNat', Nat.mod_eq_of_lt (by omega), Nat.ModEq]
    omega

end Unrestricted

end KernelBypass.Linux
