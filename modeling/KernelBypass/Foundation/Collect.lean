import Mathlib.Data.List.Forall2

namespace KernelBypass.Foundation.Collect

variable {γ δ ε : Type}

/-- A loop that appends what a function finds in each element, or the comprehension that
does the same. -/
def collect (f : γ → Except ε (Option δ)) : List γ → Except ε (List δ)
  | [] => return []
  | x :: xs => do
    let found ← f x
    let rest ← collect f xs
    return found.toList ++ rest

def found (f : γ → Except ε (Option δ)) (x : γ) : Option δ := (f x).toOption.join

theorem bind_eq_ok_iff {x : Except ε γ} {g : γ → Except ε δ} {r : δ} :
    (x >>= g) = .ok r ↔ ∃ a, x = .ok a ∧ g a = .ok r := by
  cases x with
  | error e => simp [bind, Except.bind]
  | ok a => simp [bind, Except.bind]

def failIf (p : Prop) [Decidable p] (e : ε) : Except ε Unit := if p then .error e else .ok ()

theorem failIf_eq_ok_iff {p : Prop} [Decidable p] {e : ε} {u : Unit} :
    failIf p e = .ok u ↔ ¬ p := by
  by_cases h : p <;> simp [failIf, h]

theorem bind_eq_error_iff {x : Except ε γ} {g : γ → Except ε δ} {e : ε} :
    (x >>= g) = .error e ↔ x = .error e ∨ ∃ a, x = .ok a ∧ g a = .error e := by
  cases x with
  | error e => simp [bind, Except.bind]
  | ok a => simp [bind, Except.bind]

theorem failIf_eq_error_iff {p : Prop} [Decidable p] {e e' : ε} :
    failIf p e = .error e' ↔ p ∧ e = e' := by
  by_cases h : p <;> simp [failIf, h]

theorem mapError_eq_error_iff {ε' : Type} {x : Except ε γ} {f : ε → ε'} {e' : ε'} :
    x.mapError f = .error e' ↔ ∃ e, x = .error e ∧ f e = e' := by
  cases x <;> simp [Except.mapError]

theorem exists_of_mapM_eq_error {f : γ → Except ε δ} {l : List γ} {e : ε}
    (h : l.mapM f = .error e) : ∃ x ∈ l, f x = .error e := by
  induction l with
  | nil => cases h
  | cons x l ih =>
    rw [List.mapM_cons, bind_eq_error_iff] at h
    rcases h with h | ⟨y, -, h⟩
    · exact ⟨x, List.mem_cons_self, h⟩
    · rcases bind_eq_error_iff.mp h with h | ⟨r, -, h⟩
      · obtain ⟨x', hx', hf⟩ := ih h
        exact ⟨x', List.mem_cons_of_mem _ hx', hf⟩
      · cases h

theorem mapError_eq_ok_iff {ε' : Type} {f : ε → ε'} {x : Except ε γ} {a : γ} :
    x.mapError f = .ok a ↔ x = .ok a := by
  cases x <;> simp [Except.mapError]

theorem mapM_eq_ok_iff {f : γ → Except ε δ} {l : List γ} {r : List δ} :
    l.mapM f = .ok r ↔ List.Forall₂ (fun a b ↦ f a = .ok b) l r := by
  induction l generalizing r with
  | nil => simp [pure, Except.pure, eq_comm]
  | cons a l ih =>
    rw [List.mapM_cons, List.forall₂_cons_left_iff]
    simp only [bind_eq_ok_iff, ih, pure, Except.pure, Except.ok.injEq]
    constructor
    · rintro ⟨b, hb, rest, hrest, rfl⟩
      exact ⟨b, rest, hb, hrest, rfl⟩
    · rintro ⟨b, rest, hb, hrest, rfl⟩
      exact ⟨b, hb, rest, hrest, rfl⟩

theorem exists_mapM_eq_ok_iff {f : γ → Except ε δ} {l : List γ} :
    (∃ r, l.mapM f = .ok r) ↔ ∀ x ∈ l, ∃ y, f x = .ok y := by
  induction l with
  | nil => exact iff_of_true ⟨[], rfl⟩ (List.forall_mem_nil _)
  | cons x l ih =>
    simp only [mapM_eq_ok_iff, List.forall₂_cons_left_iff] at ih ⊢
    rw [List.forall_mem_cons, ← ih]
    constructor
    · rintro ⟨_, y, r, hy, hr, rfl⟩
      exact ⟨⟨y, hy⟩, r, hr⟩
    · rintro ⟨⟨y, hy⟩, r, hr⟩
      exact ⟨_, y, r, hy, hr, rfl⟩

theorem forall_mem_of_forall₂ {R : γ → δ → Prop} {P : δ → Prop} {l : List γ} {u : List δ}
    (h : List.Forall₂ R l u) (hP : ∀ a ∈ l, ∀ b, R a b → P b) : ∀ b ∈ u, P b := by
  induction h with
  | nil => exact List.forall_mem_nil P
  | cons hab h ih =>
    obtain ⟨hhead, htail⟩ := List.forall_mem_cons.mp hP
    exact List.forall_mem_cons.mpr ⟨hhead _ hab, ih htail⟩

theorem forall₂_comp {R : γ → δ → Prop} {S : δ → ε → Prop} {T : γ → ε → Prop} {l : List γ}
    {u : List δ} {v : List ε} (h : List.Forall₂ R l u) (h' : List.Forall₂ S u v)
    (hT : ∀ a b c, R a b → S b c → T a c) : List.Forall₂ T l v := by
  induction h generalizing v with
  | nil =>
    cases h'
    exact .nil
  | cons hab h ih =>
    cases h' with
    | cons hbc h' => exact .cons (hT _ _ _ hab hbc) (ih h')

theorem map_eq_map_of_forall₂ {R : γ → δ → Prop} {f : γ → ε} {g : δ → ε} {l : List γ}
    {l' : List δ} (h : List.Forall₂ R l l') (hfg : ∀ a b, R a b → f a = g b) :
    l.map f = l'.map g := by
  induction h with
  | nil => rfl
  | cons hab h ih => rw [List.map_cons, List.map_cons, hfg _ _ hab, ih]

theorem found_of_ok {f : γ → Except ε (Option δ)} {x : γ} {o : Option δ} (h : f x = .ok o) :
    found f x = o := by
  rw [found, h]
  rfl

theorem collect_eq_ok_iff {f : γ → Except ε (Option δ)} {xs : List γ} {r : List δ} :
    collect f xs = .ok r ↔ (∀ x ∈ xs, ∃ o, f x = .ok o) ∧ xs.filterMap (found f) = r := by
  induction xs generalizing r with
  | nil => simp [collect, pure, Except.pure]
  | cons x xs ih =>
    have hcons : (x :: xs).filterMap (found f) = (found f x).toList ++ xs.filterMap (found f) := by
      rw [List.filterMap_cons]
      cases found f x <;> rfl
    rw [collect, bind_eq_ok_iff, List.forall_mem_cons, hcons]
    simp only [bind_eq_ok_iff, ih]
    constructor
    · rintro ⟨o, hx, rest, ⟨hall, rfl⟩, ⟨⟩⟩
      exact ⟨⟨⟨o, hx⟩, hall⟩, by rw [found_of_ok hx]⟩
    · rintro ⟨⟨⟨o, hx⟩, hall⟩, rfl⟩
      refine ⟨o, hx, _, ⟨hall, rfl⟩, ?_⟩
      rw [found_of_ok hx]
      rfl

theorem mapM_eq_ok {f : γ → Except ε δ} {g : γ → δ} {xs : List γ}
    (h : ∀ x ∈ xs, f x = .ok (g x)) : xs.mapM f = .ok (xs.map g) := by
  induction xs with
  | nil => rfl
  | cons x xs ih =>
    obtain ⟨hx, hxs⟩ := List.forall_mem_cons.mp h
    rw [List.mapM_cons, hx, ih hxs]
    rfl

section Selections

theorem length_filterMap_le {g g' : γ → Option δ} {xs : List γ}
    (h : ∀ x ∈ xs, (g x).isSome → (g' x).isSome) :
    (xs.filterMap g).length ≤ (xs.filterMap g').length := by
  induction xs with
  | nil => exact Nat.le_refl 0
  | cons x xs ih =>
    obtain ⟨hx, hxs⟩ := List.forall_mem_cons.mp h
    have hlen := ih hxs
    rw [List.filterMap_cons, List.filterMap_cons]
    cases hg : g x with
    | none =>
      cases g' x with
      | none => exact hlen
      | some b => exact Nat.le_succ_of_le hlen
    | some a =>
      obtain ⟨b, hb⟩ := Option.isSome_iff_exists.mp (hx (by rw [hg]; rfl))
      rw [hb]
      exact Nat.succ_le_succ hlen

/-- Nothing is found only where the other finds nothing either, so that no element can make
up for another. -/
theorem filterMap_eq_iff {g g' : γ → Option δ} {xs : List γ}
    (h : ∀ x ∈ xs, (g x).isSome → (g' x).isSome) :
    xs.filterMap g = xs.filterMap g' ↔ ∀ x ∈ xs, g x = g' x := by
  refine ⟨fun heq ↦ ?_, List.filterMap_congr⟩
  induction xs with
  | nil => simp
  | cons x xs ih =>
    obtain ⟨hx, hxs⟩ := List.forall_mem_cons.mp h
    rw [List.filterMap_cons, List.filterMap_cons] at heq
    rw [List.forall_mem_cons]
    cases hg : g x with
    | none =>
      cases hg' : g' x with
      | none =>
        rw [hg, hg'] at heq
        exact ⟨rfl, ih hxs heq⟩
      | some b =>
        rw [hg, hg'] at heq
        have hlen := length_filterMap_le hxs
        rw [show xs.filterMap g = b :: xs.filterMap g' from heq] at hlen
        exact absurd hlen (Nat.not_succ_le_self _)
    | some a =>
      obtain ⟨b, hb⟩ := Option.isSome_iff_exists.mp (hx (by rw [hg]; rfl))
      rw [hg, hb] at heq
      obtain ⟨rfl, hrest⟩ := List.cons.inj heq
      exact ⟨hb.symm, ih hxs hrest⟩

theorem length_filterMap_head?_le (h : γ → List δ) (xs : List γ) :
    (xs.filterMap fun x ↦ (h x).head?).length ≤ (xs.flatMap h).length := by
  induction xs with
  | nil => exact Nat.le_refl 0
  | cons x xs ih =>
    rw [List.filterMap_cons, List.flatMap_cons, List.length_append]
    cases h x with
    | nil => simpa using ih
    | cons a l =>
      simp only [List.head?_cons, List.length_cons]
      omega

/-- The first of each group are all, so that no group has a second. -/
theorem filterMap_head?_eq_flatMap_iff {h : γ → List δ} {xs : List γ} :
    xs.filterMap (fun x ↦ (h x).head?) = xs.flatMap h ↔ ∀ x ∈ xs, (h x).length ≤ 1 := by
  induction xs with
  | nil => simp
  | cons x xs ih =>
    rw [List.filterMap_cons, List.flatMap_cons, List.forall_mem_cons]
    cases h x with
    | nil => simpa using ih
    | cons a l =>
      cases l with
      | nil => simpa using ih
      | cons b l =>
        have hlen := length_filterMap_head?_le h xs
        refine iff_of_false (fun heq ↦ ?_) (by simp)
        have hsame := congrArg List.length heq
        simp only [List.head?_cons, List.length_cons, List.length_append] at hsame
        omega

theorem findSome?_bind {g : γ → Option δ} {k : δ → Option ε} {xs : List γ}
    (h : ∀ x ∈ xs, ∀ d, g x = some d → (k d).isSome) :
    (xs.findSome? g).bind k = xs.findSome? fun x ↦ (g x).bind k := by
  induction xs with
  | nil => rfl
  | cons x xs ih =>
    obtain ⟨hx, hxs⟩ := List.forall_mem_cons.mp h
    rw [List.findSome?_cons, List.findSome?_cons]
    cases hg : g x with
    | none => exact ih hxs
    | some d =>
      obtain ⟨e, he⟩ := Option.isSome_iff_exists.mp (hx d hg)
      simp [he]

end Selections

end KernelBypass.Foundation.Collect
