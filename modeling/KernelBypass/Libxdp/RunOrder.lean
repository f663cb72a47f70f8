import KernelBypass.Foundation.Sorting
import KernelBypass.Libxdp.Program
import Mathlib.Data.UInt

namespace KernelBypass.Libxdp

open Common.CommonParams Foundation Sorting

def strcmp (s t : CString) : Ordering := compare s.bytes t.bytes

def cmpInsnCnt : Option BpfProgram → Option BpfProgram → Ordering
  | some p, some q => compare p.insnCnt q.insnCnt
  | _, _ => .eq

/-- The sign of what `cmp_xdp_programs` returns. -/
def cmpXdpPrograms (a b : XdpProgram) : Ordering :=
  (compare a.runPrio b.runPrio).then <|
  (strcmp a.progName b.progName).then <|
  -- loaded before non-loaded
  (compare a.progFd.isNone b.progFd.isNone).then <|
  (cmpInsnCnt a.bpfProg b.bpfProg).then <|
  (compare a.progTag b.progTag).then <|
  compare a.loadTime b.loadTime

section Consistency

variable {l l' : List XdpProgram}

/-- Programs that are not loaded have their object. Of those that are loaded and still have
it none of the same priority and name differ in size. -/
structure Comparable (l : List XdpProgram) : Prop where
  unloaded : ∀ a ∈ l, a.progFd = none → a.bpfProg.isSome
  loaded : ∀ a ∈ l, ∀ b ∈ l, a.progFd.isSome → b.progFd.isSome → a.runPrio = b.runPrio →
    a.progName = b.progName → cmpInsnCnt a.bpfProg b.bpfProg = .eq

def unloadedSize (a : XdpProgram) : ℕ :=
  if a.progFd.isNone then (a.bpfProg.map BpfProgram.insnCnt).getD 0 else 0

def compareKeys : XdpProgram → XdpProgram → Ordering :=
  compareLex (compareOn XdpProgram.runPrio) <|
  compareLex (compareOn (·.progName.bytes)) <|
  compareLex (compareOn (·.progFd.isNone)) <|
  compareLex (compareOn unloadedSize) <|
  compareLex (compareOn XdpProgram.progTag) <|
  compareOn XdpProgram.loadTime

instance : Std.TransCmp compareKeys := by
  unfold compareKeys
  infer_instance

theorem then_congr {o o₁ o₂ : Ordering} (h : o = .eq → o₁ = o₂) : o.then o₁ = o.then o₂ := by
  cases o with
  | lt => rfl
  | eq => exact h rfl
  | gt => rfl

theorem unloadedSize_of_loaded {a : XdpProgram} (h : a.progFd.isNone = false) :
    unloadedSize a = 0 := by
  rw [unloadedSize, h]
  rfl

theorem Comparable.cmpInsnCnt_eq (h : Comparable l) {a b : XdpProgram} (ha : a ∈ l) (hb : b ∈ l)
    (hprio : a.runPrio = b.runPrio) (hname : a.progName = b.progName)
    (hfd : a.progFd.isNone = b.progFd.isNone) :
    cmpInsnCnt a.bpfProg b.bpfProg = compare (unloadedSize a) (unloadedSize b) := by
  cases hloaded : a.progFd.isNone with
  | false =>
    have hloaded' : b.progFd.isNone = false := hfd.symm.trans hloaded
    have hsome : ∀ fd : Option BpfProgInfo, fd.isNone = false → fd.isSome := by
      intro fd hfd
      cases fd with
      | none => cases hfd
      | some info => rfl
    rw [h.loaded a ha b hb (hsome _ hloaded) (hsome _ hloaded') hprio hname,
      unloadedSize_of_loaded hloaded, unloadedSize_of_loaded hloaded', Std.compare_self]
  | true =>
    have hnone := Option.isNone_iff_eq_none.mp hloaded
    have hnone' := Option.isNone_iff_eq_none.mp (hfd.symm.trans hloaded)
    obtain ⟨p, hp⟩ := Option.isSome_iff_exists.mp (h.unloaded a ha hnone)
    obtain ⟨q, hq⟩ := Option.isSome_iff_exists.mp (h.unloaded b hb hnone')
    simp [unloadedSize, hnone, hnone', hp, hq, cmpInsnCnt]

theorem Comparable.cmp_eq_compareKeys (h : Comparable l) {a b : XdpProgram} (ha : a ∈ l)
    (hb : b ∈ l) : cmpXdpPrograms a b = compareKeys a b := by
  refine then_congr fun hprio ↦ then_congr fun hname ↦ then_congr fun hfd ↦ ?_
  rw [h.cmpInsnCnt_eq ha hb (Std.LawfulEqOrd.eq_of_compare hprio)
    (cstring_eq (Std.LawfulEqOrd.eq_of_compare hname)) (Std.LawfulEqOrd.eq_of_compare hfd)]
  rfl

theorem Comparable.consistent (h : Comparable l) : Consistent cmpXdpPrograms l :=
  .of_agrees fun _ ha _ hb ↦ h.cmp_eq_compareKeys ha hb

end Consistency

section Priority

theorem runPrio_le_of_cmp {a b : XdpProgram} (h : (cmpXdpPrograms a b).isLE) :
    a.runPrio ≤ b.runPrio := by
  have hor := Ordering.isLE_then_iff_or.mp h
  exact Std.isLE_compare.mp (hor.elim (· ▸ rfl) (·.1 ▸ rfl))

def SizesAgree (l : List XdpProgram) : Prop :=
  ∀ a ∈ l, ∀ b ∈ l, a.runPrio = b.runPrio → a.progName = b.progName →
    cmpInsnCnt a.bpfProg b.bpfProg = .eq

theorem cmpInsnCnt_self (p : Option BpfProgram) : cmpInsnCnt p p = .eq := by
  cases p with
  | none => rfl
  | some p => exact Std.compare_self

theorem sizesAgree_singleton (prog : XdpProgram) : SizesAgree [prog] := by
  intro a ha b hb _ _
  rw [List.mem_singleton.mp ha, List.mem_singleton.mp hb]
  exact cmpInsnCnt_self _

theorem sizesAgree_pair {a b : XdpProgram} (hprio : a.runPrio ≠ b.runPrio) : SizesAgree [a, b] := by
  intro x hx y hy heq _
  rcases List.mem_pair.mp hx with rfl | rfl <;> rcases List.mem_pair.mp hy with rfl | rfl
  · exact cmpInsnCnt_self _
  · exact absurd heq hprio
  · exact absurd heq.symm hprio
  · exact cmpInsnCnt_self _

end Priority

end KernelBypass.Libxdp
