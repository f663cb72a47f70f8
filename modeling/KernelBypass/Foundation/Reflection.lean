import Mathlib.Logic.Function.Iterate

namespace KernelBypass.Foundation.Reflection

variable {α ι : Type}

def bounce (step : α → Option α) : ℕ → α → Option α
  | 0, a => some a
  | n + 1, a => (step a).bind (bounce step n)

/-- How often a message is reflected when it visits `stations` in turn and the
first one that absorbs it keeps it. -/
def reflections (step : ι → α → Option α) : List ι → α → ℕ
  | [], _ => 0
  | i :: stations, a =>
    match step i a with
    | none => 0
    | some b => reflections step stations b + 1

theorem bounce_eq_iterate {step : α → Option α} {reply : α → α} {S : α → Prop}
    (hstep : ∀ a, S a → step a = some (reply a)) (hS : ∀ a, S a → S (reply a)) (n : ℕ) {a : α}
    (ha : S a) : bounce step n a = some (reply^[n] a) := by
  induction n generalizing a with
  | zero => rfl
  | succ n ih =>
    rw [bounce, hstep a ha, Option.bind_some, ih (hS a ha), Function.iterate_succ_apply]

/-- When two replies in a row undo each other up to a normal form that the reply
does not see, only the parity of the number of reflections matters. -/
theorem bounce_parity {step : α → Option α} (reply clear : α → α) (S : α → Prop)
    (hstep : ∀ a, S a → step a = some (reply a)) (hS : ∀ a, S a → S (reply a))
    (htwice : ∀ a, S a → reply (reply a) = clear a) (hclear : ∀ a, S a → reply (clear a) = reply a)
    (n : ℕ) {a : α} (ha : S a) :
    bounce step (n + 1) a = some (if (n + 1) % 2 = 1 then reply a else clear a) := by
  rw [bounce_eq_iterate hstep hS (n + 1) ha, Option.some_inj]
  induction n with
  | zero => rfl
  | succ n ih =>
    rw [Function.iterate_succ_apply', ih]
    rcases Nat.mod_two_eq_zero_or_one n with hn | hn
    · rw [if_pos (by omega), if_neg (by omega), htwice a ha]
    · rw [if_neg (by omega), if_pos (by omega), hclear a ha]

theorem reflections_le_one {step : ι → α → Option α}
    (h : ∀ i a b, step i a = some b → ∀ j, step j b = none) (stations : List ι) (a : α) :
    reflections step stations a ≤ 1 := by
  cases stations with
  | nil => exact Nat.zero_le 1
  | cons i stations =>
    unfold reflections
    cases hi : step i a with
    | none => exact Nat.zero_le 1
    | some b =>
      cases stations with
      | nil => exact Nat.le_refl 1
      | cons j stations =>
        simp only [reflections, h i a b hi j, Nat.zero_add, Nat.le_refl]

end KernelBypass.Foundation.Reflection
