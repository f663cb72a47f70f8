import KernelBypass.Foundation.OnesComplement
import KernelBypass.Linux.Headers

namespace KernelBypass.Linux

open Foundation Buffer

def netWord (p : Frame) (i : ℕ) : ℕ := 256 * (cell p i).toNat + (cell p (i + 1)).toNat

section Fields

variable (p : Frame)

def etherType : ℕ := netWord p 12

def ihl : ℕ := Iphdr.ihl (cell p 14)

def totLen : ℕ := netWord p 16

def protocol : UInt8 := cell p 23

def l4Offset : ℕ := 14 + 4 * ihl p

def ipHeader : List UInt8 := slice p 14 (4 * ihl p)

def l4Message : List UInt8 := slice p (l4Offset p) (totLen p - 4 * ihl p)

end Fields

variable {p q : Frame}

theorem netWord_lt (p : Frame) (i : ℕ) : netWord p i < 65536 := by
  have ha := (cell p i).toNat_lt
  have hb := (cell p (i + 1)).toNat_lt
  unfold netWord
  omega

theorem netWord_congr {i j : ℕ} (h : cell p i = cell q j) (h' : cell p (i + 1) = cell q (j + 1)) :
    netWord p i = netWord q j := by
  rw [netWord, netWord, h, h']

theorem netWord_inj {i j : ℕ} (h : netWord p i = netWord q j) :
    cell p i = cell q j ∧ cell p (i + 1) = cell q (j + 1) := by
  have hp := (cell p i).toNat_lt
  have hp' := (cell p (i + 1)).toNat_lt
  have hq := (cell q j).toNat_lt
  have hq' := (cell q (j + 1)).toNat_lt
  unfold netWord at h
  rw [← UInt8.toNat_inj, ← UInt8.toNat_inj]
  omega

theorem netWord_eq_iff {i j : ℕ} (hp : i + 2 ≤ p.length) (hq : j + 2 ≤ q.length) :
    netWord p i = netWord q j ↔ slice p i 2 = slice q j 2 := by
  rw [slice_succ (by omega), slice_succ (by omega), slice_zero, slice_succ (by omega),
    slice_succ (by omega), slice_zero]
  constructor
  · intro h
    rw [(netWord_inj h).1, (netWord_inj h).2]
  · intro h
    obtain ⟨hfst, hsnd, _⟩ := by simpa only [List.cons.injEq] using h
    exact netWord_congr hfst hsnd

theorem total_slice_two {i : ℕ} (h : i + 2 ≤ p.length) :
    OnesComplement.total (slice p i 2) = netWord p i := by
  rw [slice_succ (by omega), slice_succ (by omega), slice_zero, OnesComplement.total_cons_cons]
  simp [netWord]

theorem netWord_eq_zero {i : ℕ} (h : i + 2 ≤ p.length) (hs : slice p i 2 = [0, 0]) :
    netWord p i = 0 := by
  rw [← total_slice_two h, hs]
  rfl

theorem etherType_eq_ip : etherType p = 0x0800 ↔ cell p 12 = 8 ∧ cell p 13 = 0 := by
  have ha := (cell p 12).toNat_lt
  have hb := (cell p 13).toNat_lt
  rw [← UInt8.toNat_inj, ← UInt8.toNat_inj]
  change 256 * (cell p 12).toNat + (cell p 13).toNat = 2048 ↔
    (cell p 12).toNat = 8 ∧ (cell p 13).toNat = 0
  omega

end KernelBypass.Linux
