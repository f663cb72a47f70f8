import Mathlib.Data.List.Basic

namespace KernelBypass.Foundation

variable {ε σ : Type}

/-- Finite runs of a transition system, with the labels of their steps. -/
inductive Trace (step : ε → σ → σ → Prop) : List ε → σ → σ → Prop
  | nil (s : σ) : Trace step [] s s
  | cons {e : ε} {es : List ε} {s t u : σ} :
      step e s t → Trace step es t u → Trace step (e :: es) s u

namespace Trace

variable {step : ε → σ → σ → Prop} {es fs : List ε} {s t u : σ}

theorem append_iff : Trace step (es ++ fs) s u ↔ ∃ t, Trace step es s t ∧ Trace step fs t u := by
  induction es generalizing s with
  | nil =>
    constructor
    · exact fun h ↦ ⟨s, .nil s, h⟩
    · rintro ⟨t, ht, hu⟩
      cases ht
      exact hu
  | cons e es ih =>
    constructor
    · intro h
      cases h with
      | cons he h =>
        obtain ⟨t, ht, hu⟩ := ih.mp h
        exact ⟨t, .cons he ht, hu⟩
    · rintro ⟨t, ht, hu⟩
      cases ht with
      | cons he ht => exact .cons he (ih.mpr ⟨t, ht, hu⟩)

theorem of_foldlM {δ : Type} {f : σ → ε → Except δ σ} (h : es.foldlM f s = .ok t) :
    Trace (fun e s t ↦ f s e = .ok t) es s t := by
  induction es generalizing s with
  | nil =>
    cases h
    exact .nil _
  | cons e es ih =>
    rw [List.foldlM_cons] at h
    cases hstep : f s e with
    | error d =>
      rw [hstep] at h
      cases h
    | ok s' =>
      rw [hstep] at h
      exact .cons hstep (ih h)

/-- An invariant has to be kept only by the steps that occur. -/
theorem invariant {I : σ → Prop} {P : ε → Prop}
    (hstep : ∀ e s t, P e → step e s t → I s → I t) (h : Trace step es s t)
    (hes : ∀ e ∈ es, P e) (hs : I s) : I t := by
  induction h with
  | nil s => exact hs
  | @cons e es s t u he h ih =>
    have ht : I t := hstep e s t (hes e List.mem_cons_self) he hs
    exact ih (fun e' he' ↦ hes e' (List.mem_cons_of_mem e he')) ht

/-- What every step keeps can be used at each of them. -/
theorem with_invariant {I : σ → Prop} (hstep : ∀ e s t, step e s t → I s → I t)
    (h : Trace step es s t) (hs : I s) : Trace (fun e s t ↦ step e s t ∧ I s) es s t := by
  induction h with
  | nil s => exact .nil s
  | cons he h ih => exact .cons ⟨he, hs⟩ (ih (hstep _ _ _ he hs))

theorem exists_step {e : ε} (h : Trace step es s t) (he : e ∈ es) : ∃ s t, step e s t := by
  induction h with
  | nil s => cases he
  | cons hstep h ih =>
    rcases List.mem_cons.mp he with rfl | he
    · exact ⟨_, _, hstep⟩
    · exact ih he

theorem map {ε' σ' : Type} {step' : ε' → σ' → σ' → Prop} (event : ε → ε') (view : σ → σ')
    (hstep : ∀ e s t, step e s t → step' (event e) (view s) (view t)) (h : Trace step es s t) :
    Trace step' (es.map event) (view s) (view t) := by
  induction h with
  | nil s => exact .nil _
  | cons he h ih => exact .cons (hstep _ _ _ he) ih

/-- Where each step either sets what is observed or leaves it, the last one that sets
it decides. -/
theorem last_write {β : Type} (obs : σ → β) (write : ε → Option β)
    (hstep : ∀ e s t, step e s t → obs t = (write e).getD (obs s)) (h : Trace step es s t) :
    obs t = (es.filterMap write).getLast?.getD (obs s) := by
  induction h with
  | nil s => rfl
  | @cons e es s t u he h ih =>
    rw [ih, hstep e s t he]
    cases hw : write e with
    | none => rw [List.filterMap_cons_none hw, Option.getD_none]
    | some b =>
      rw [List.filterMap_cons_some hw, List.getLast?_cons, Option.getD_some, Option.getD_some]

end Trace

namespace Stack

variable {α β : Type}

inductive Event (α β : Type)
  | pushed (a : α)
  | popped (b : β)
  | refused

/-- One operation on a stack. A popped entry `a` is reported as `view a`. -/
inductive Step (view : α → β) : Event α β → List α → List α → Prop
  | pushed (a : α) (s : List α) : Step view (.pushed a) s (a :: s)
  | popped (a : α) (s : List α) : Step view (.popped (view a)) (a :: s) s
  | refused (s : List α) : Step view .refused s s

variable {view : α → β} {s t : List α}

theorem trace_pushed {as : List α} (h : Trace (Step view) (as.map .pushed) s t) :
    t = as.reverse ++ s := by
  induction as generalizing s with
  | nil =>
    cases h
    rfl
  | cons a as ih =>
    cases h with
    | cons hstep h =>
      cases hstep
      rw [ih h, List.reverse_cons, List.append_assoc]
      rfl

theorem trace_popped {as : List α} {bs : List β} (hlen : bs.length = as.length)
    (h : Trace (Step view) (bs.map .popped) (as ++ s) t) : bs = as.map view ∧ t = s := by
  induction bs generalizing as with
  | nil =>
    obtain rfl := List.length_eq_zero_iff.mp hlen.symm
    cases h
    exact ⟨rfl, rfl⟩
  | cons b bs ih =>
    cases as with
    | nil => simp at hlen
    | cons a as =>
      cases h with
      | cons hstep h =>
        cases hstep
        obtain ⟨rfl, rfl⟩ := ih (Nat.succ.inj hlen) h
        exact ⟨rfl, rfl⟩

/-- As many pops as there were pushes report the pushed entries, the last one first,
and leave the stack as it was. -/
theorem trace_pushed_popped {as : List α} {bs : List β} (hlen : bs.length = as.length)
    (h : Trace (Step view) (as.map .pushed ++ bs.map .popped) s t) :
    bs = (as.map view).reverse ∧ t = s := by
  obtain ⟨r, hpush, hpop⟩ := Trace.append_iff.mp h
  rw [trace_pushed hpush] at hpop
  obtain ⟨rfl, rfl⟩ := trace_popped (by rw [hlen, List.length_reverse]) hpop
  exact ⟨by rw [List.map_reverse], rfl⟩

end Stack

end KernelBypass.Foundation
