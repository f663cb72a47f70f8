import KernelBypass.Foundation.Trace
import Mathlib.Logic.Function.Basic

namespace KernelBypass.Foundation

inductive Turn (κ ε δ : Type)
  | party (k : κ) (e : ε)
  | world (d : δ)

namespace Turn

variable {κ ε ε' δ δ' : Type}

def isOf [DecidableEq κ] (k : κ) : Turn κ ε δ → Bool
  | .party k' _ => k' = k
  | .world _ => false

def map (event : ε → ε') (event' : δ → δ') : Turn κ ε δ → Turn κ ε' δ'
  | .party k e => .party k (event e)
  | .world d => .world (event' d)

theorem map_id : (map id id : Turn κ ε δ → Turn κ ε δ) = id := by
  funext turn
  cases turn <;> rfl

end Turn

variable {κ ε δ σ τ : Type} [DecidableEq κ]

/-- Parties that have a state each and work on a shared one, in any order. -/
inductive Interleaved (own : ε → σ × τ → σ × τ → Prop) (env : δ → σ → σ → Prop) :
    Turn κ ε δ → σ × (κ → τ) → σ × (κ → τ) → Prop
  | party {e : ε} {s s' : σ} {parties : κ → τ} {l : τ} (k : κ) :
      own e (s, parties k) (s', l) →
      Interleaved own env (.party k e) (s, parties) (s', Function.update parties k l)
  | world {d : δ} {s s' : σ} {parties : κ → τ} :
      env d s s' → Interleaved own env (.world d) (s, parties) (s', parties)

/-- What is to hold of the shared state, of each party, and between any two of them. -/
structure Outline (σ τ : Type) where
  shared : σ → Prop
  party : σ → τ → Prop
  between : τ → τ → Prop

namespace Outline

variable {O : Outline σ τ} {own : ε → σ × τ → σ × τ → Prop} {env : δ → σ → σ → Prop}
  {w w' : σ × (κ → τ)} {turn : Turn κ ε δ} {turns : List (Turn κ ε δ)}

structure Holds (O : Outline σ τ) (w : σ × (κ → τ)) : Prop where
  shared : O.shared w.1
  party : ∀ k, O.party w.1 (w.2 k)
  between : ∀ i j, i ≠ j → O.between (w.2 i) (w.2 j)

/-- No step breaks what holds of the party that takes it, nor what holds of another one. -/
structure Stable (O : Outline σ τ) (own : ε → σ × τ → σ × τ → Prop) (env : δ → σ → σ → Prop) :
    Prop where
  symm : ∀ l m, O.between l m → O.between m l
  mover : ∀ e s l s' l', own e (s, l) (s', l') → O.shared s → O.party s l →
    O.shared s' ∧ O.party s' l'
  bystander : ∀ e s l s' l' m, own e (s, l) (s', l') → O.shared s → O.party s l → O.party s m →
    O.between l m → O.party s' m ∧ O.between l' m
  world : ∀ d s s', env d s s' → O.shared s → O.shared s' ∧ ∀ l, O.party s l → O.party s' l

theorem Stable.step (hO : O.Stable own env) (h : Interleaved own env turn w w')
    (hw : O.Holds w) : O.Holds w' := by
  cases h with
  | @party e s s' parties l k hown =>
    obtain ⟨hshared, hparty⟩ := hO.mover e s _ s' l hown hw.shared (hw.party k)
    have hother : ∀ i, i ≠ k → O.party s' (parties i) ∧ O.between l (parties i) := fun i hi ↦
      hO.bystander e s _ s' l _ hown hw.shared (hw.party k) (hw.party i) (hw.between k i hi.symm)
    refine ⟨hshared, fun i ↦ ?_, fun i j hij ↦ ?_⟩
    · dsimp only
      by_cases hi : i = k
      · rw [hi, Function.update_self]
        exact hparty
      · rw [Function.update_of_ne hi]
        exact (hother i hi).1
    · dsimp only
      by_cases hi : i = k
      · have hj : j ≠ k := fun hj ↦ hij (hi.trans hj.symm)
        rw [hi, Function.update_self, Function.update_of_ne hj]
        exact (hother j hj).2
      · rw [Function.update_of_ne hi]
        by_cases hj : j = k
        · rw [hj, Function.update_self]
          exact hO.symm _ _ (hother i hi).2
        · rw [Function.update_of_ne hj]
          exact hw.between i j hij
  | @world d s s' parties henv =>
    obtain ⟨hshared, hparty⟩ := hO.world d s s' henv hw.shared
    exact ⟨hshared, fun k ↦ hparty _ (hw.party k), hw.between⟩

theorem Stable.run (hO : O.Stable own env) (h : Trace (Interleaved own env) turns w w')
    (hw : O.Holds w) : O.Holds w' :=
  h.invariant (P := fun _ ↦ True) (fun _ _ _ _ hstep ↦ hO.step hstep) (fun _ _ ↦ trivial) hw

/-- A simulation needs to be shown only for the steps of one party and of the world. -/
theorem Stable.simulates {ε' δ' σ' τ' : Type} {own' : ε' → σ' × τ' → σ' × τ' → Prop}
    {env' : δ' → σ' → σ' → Prop} (hO : O.Stable own env) (event : ε → ε') (event' : δ → δ')
    (view : σ → σ') (view' : τ → τ')
    (hown : ∀ e s l s' l', own e (s, l) (s', l') → O.shared s → O.party s l →
      own' (event e) (view s, view' l) (view s', view' l'))
    (henv : ∀ d s s', env d s s' → O.shared s → env' (event' d) (view s) (view s'))
    (h : Trace (Interleaved own env) turns w w') (hw : O.Holds w) :
    Trace (Interleaved own' env') (turns.map (.map event event'))
      (view w.1, view' ∘ w.2) (view w'.1, view' ∘ w'.2) := by
  have hrun := h.with_invariant (I := O.Holds) (fun _ _ _ hstep ↦ hO.step hstep) hw
  refine hrun.map _ (fun w ↦ (view w.1, view' ∘ w.2)) ?_
  rintro turn w w' ⟨hstep, hw⟩
  cases hstep with
  | party k hstep =>
    rw [Function.comp_update]
    exact .party k (hown _ _ _ _ _ hstep hw.shared (hw.party k))
  | world hstep => exact .world (henv _ _ _ hstep hw.shared)

end Outline

/-- What a party does on its own it can do among others, who then do not move. -/
theorem Trace.solo {own : ε → σ × τ → σ × τ → Prop} {env : δ → σ → σ → Prop} {es : List ε}
    {s s' : σ} {l l' : τ} (k : κ) {parties parties' : κ → τ} (hk : parties k = l)
    (hk' : Function.update parties k l' = parties') (h : Trace own es (s, l) (s', l')) :
    Trace (Interleaved own env) (es.map (.party k)) (s, parties) (s', parties') := by
  induction es generalizing s l parties with
  | nil =>
    cases h
    rw [← hk', ← hk, Function.update_eq_self]
    exact .nil _
  | cons e es ih =>
    cases h with
    | @cons _ _ _ x _ hstep h =>
      refine .cons (.party k ?_) (ih (Function.update_self ..) (by rwa [Function.update_idem]) h)
      rwa [hk]

/-- A party whose steps all count down takes no more of them than it started with. -/
theorem Trace.countP_isOf_le {own : ε → σ × τ → σ × τ → Prop} {env : δ → σ → σ → Prop}
    {w w' : σ × (κ → τ)} {turns : List (Turn κ ε δ)} {k : κ} {P : ε → Prop} (measure : τ → ℕ)
    (hown : ∀ e s l s' l', P e → own e (s, l) (s', l') → measure l' < measure l)
    (h : Trace (Interleaved own env) turns w w') (hturns : ∀ e, .party k e ∈ turns → P e) :
    turns.countP (Turn.isOf k) + measure (w'.2 k) ≤ measure (w.2 k) := by
  induction h with
  | nil w => simp
  | @cons turn turns w u w' hstep h ih =>
    have hrest := ih fun e he ↦ hturns e (List.mem_cons_of_mem _ he)
    cases hstep with
    | @party e s s' parties l i hstep =>
      by_cases hi : i = k
      · subst hi
        have hlt := hown e s _ s' l (hturns e List.mem_cons_self) hstep
        rw [List.countP_cons_of_pos (by simp [Turn.isOf])]
        dsimp only at hrest ⊢
        rw [Function.update_self] at hrest
        omega
      · rw [List.countP_cons_of_neg (by simp [Turn.isOf, hi])]
        dsimp only at hrest
        rwa [Function.update_of_ne (Ne.symm hi)] at hrest
    | world hstep =>
      rw [List.countP_cons_of_neg (by simp [Turn.isOf])]
      exact hrest

end KernelBypass.Foundation
