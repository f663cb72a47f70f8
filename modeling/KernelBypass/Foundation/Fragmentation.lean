import KernelBypass.Foundation.Buffer

namespace KernelBypass.Foundation.Fragmentation

open Buffer

variable {κ α : Type}

structure Fragment (κ α : Type) where
  key : κ
  offset : ℕ
  more : Bool
  payload : List α

/-- The fragments that start at a given offset, in order: all but the last carry a
positive number of whole units and announce more. -/
inductive Cut (unit : ℕ) (key : κ) : ℕ → List α → List (Fragment κ α) → Prop
  | last {offset : ℕ} {payload : List α} :
      payload ≠ [] → Cut unit key offset payload [⟨key, offset, false, payload⟩]
  | more {offset : ℕ} {chunk rest : List α} {fragments : List (Fragment κ α)} :
      chunk ≠ [] → unit ∣ chunk.length → Cut unit key (offset + chunk.length) rest fragments →
      Cut unit key offset (chunk ++ rest) (⟨key, offset, true, chunk⟩ :: fragments)

def Reassembles (unit : ℕ) (key : κ) (fragments : List (Fragment κ α)) (message : List α) : Prop :=
  ∃ ordered, ordered.Perm fragments ∧ Cut unit key 0 message ordered

/-- A fragment in its place in the part of a message that starts at an offset: the
one at the start is a whole unit unless it is all there is. -/
structure Placed (unit : ℕ) (key : κ) (offset : ℕ) (message : List α) (f : Fragment κ α) : Prop where
  key_eq : f.key = key
  nonempty : f.payload ≠ []
  step : f.offset = offset ∧ (unit ≤ f.payload.length ∨ f.payload = message) ∨
    offset + unit ≤ f.offset
  inside : f.offset + f.payload.length ≤ offset + message.length
  content : slice message (f.offset - offset) f.payload.length = f.payload

variable {unit offset : ℕ} {key : κ} {message : List α} {fragments : List (Fragment κ α)}
  {f : Fragment κ α}

theorem Placed.append {chunk : List α} (hne : chunk ≠ []) (hunit : unit ∣ chunk.length)
    (h : Placed unit key (offset + chunk.length) message f) :
    Placed unit key offset (chunk ++ message) f := by
  have hle := Nat.le_of_dvd (List.length_pos_iff.mpr hne) hunit
  have hinside := h.inside
  have hlater : offset + chunk.length ≤ f.offset := by
    obtain ⟨hstart, _⟩ | hlater := h.step <;> omega
  refine ⟨h.key_eq, h.nonempty, Or.inr (by omega), ?_, ?_⟩
  · rw [List.length_append]
    omega
  · rw [show f.offset - offset = chunk.length + (f.offset - (offset + chunk.length)) by omega,
      slice_append_right]
    exact h.content

theorem Cut.placed (h : Cut unit key offset message fragments) :
    ∀ f ∈ fragments, Placed unit key offset message f := by
  induction h with
  | @last offset payload hne =>
    intro f hf
    obtain rfl := List.mem_singleton.mp hf
    refine ⟨rfl, hne, Or.inl ⟨rfl, Or.inr rfl⟩, Nat.le_refl _, ?_⟩
    rw [Nat.sub_self]
    exact slice_length payload
  | @more offset chunk rest fragments hne hunit _ ih =>
    intro f hf
    obtain rfl | hf := List.mem_cons.mp hf
    · have hle := Nat.le_of_dvd (List.length_pos_iff.mpr hne) hunit
      refine ⟨rfl, hne, Or.inl ⟨rfl, Or.inl hle⟩, ?_, ?_⟩
      · rw [List.length_append, ← Nat.add_assoc]
        exact Nat.le_add_right _ _
      · rw [Nat.sub_self]
        simp [slice]
    · exact (ih f hf).append hne hunit

theorem Cut.exists_first (h : Cut unit key offset message fragments) :
    ∃ f ∈ fragments, f.offset = offset := by
  cases h with
  | last hne => exact ⟨_, List.mem_singleton_self _, rfl⟩
  | more hne hunit h => exact ⟨_, List.mem_cons_self, rfl⟩

theorem Cut.single_or_later (h : Cut unit key offset message fragments) :
    fragments = [⟨key, offset, false, message⟩] ∨ ∃ f ∈ fragments, offset + unit ≤ f.offset := by
  cases h with
  | last hne => exact Or.inl rfl
  | @more _ chunk _ _ hne hunit h =>
    obtain ⟨f, hf, hoff⟩ := h.exists_first
    have hle := Nat.le_of_dvd (List.length_pos_iff.mpr hne) hunit
    exact Or.inr ⟨f, List.mem_cons_of_mem _ hf, by omega⟩

theorem Cut.cons_offsets (h : Cut unit key offset message (f :: fragments)) :
    f.offset = offset ∧ ∀ g ∈ fragments, offset + unit ≤ g.offset := by
  cases h with
  | last hne => exact ⟨rfl, fun g hg ↦ absurd hg List.not_mem_nil⟩
  | more hne hunit h =>
    refine ⟨rfl, fun g hg ↦ ?_⟩
    have hle := Nat.le_of_dvd (List.length_pos_iff.mpr hne) hunit
    obtain ⟨hstart, _⟩ | hlater := (h.placed g hg).step <;> omega

theorem Cut.flatten (h : Cut unit key offset message fragments) :
    (fragments.map Fragment.payload).flatten = message := by
  induction h with
  | last hne => simp
  | more hne hunit h ih => rw [List.map_cons, List.flatten_cons, ih]

/-- Fragments that are rewritten one by one, each in its own length, are the
fragments of the rewritten message. -/
theorem Cut.rewrite {κ' β : Type} (key' : κ') (payload' : Fragment κ α → List β)
    (h : Cut unit key offset message fragments)
    (hlen : ∀ f ∈ fragments, (payload' f).length = f.payload.length) :
    Cut unit key' offset (fragments.map payload').flatten
      (fragments.map fun f ↦ ⟨key', f.offset, f.more, payload' f⟩) := by
  induction h with
  | @last offset payload hne =>
    have hl := hlen _ (List.mem_singleton_self _)
    simp only [List.map_cons, List.map_nil, List.flatten_cons, List.flatten_nil, List.append_nil]
    refine .last (List.ne_nil_of_length_pos ?_)
    rw [hl]
    exact List.length_pos_iff.mpr hne
  | @more offset chunk rest fragments hne hunit h ih =>
    have hl := hlen _ List.mem_cons_self
    have ih := ih fun f hf ↦ hlen f (List.mem_cons_of_mem _ hf)
    simp only [List.map_cons, List.flatten_cons]
    refine .more (List.ne_nil_of_length_pos ?_) (by rwa [hl]) (by rwa [hl])
    rw [hl]
    exact List.length_pos_iff.mpr hne

theorem Reassembles.placed (h : Reassembles unit key fragments message) (hf : f ∈ fragments) :
    Placed unit key 0 message f := by
  obtain ⟨ordered, hperm, hcut⟩ := h
  exact hcut.placed f (hperm.mem_iff.mpr hf)

theorem Reassembles.exists_first (h : Reassembles unit key fragments message) :
    ∃ f ∈ fragments, f.offset = 0 := by
  obtain ⟨ordered, hperm, hcut⟩ := h
  obtain ⟨f, hf, hfirst⟩ := hcut.exists_first
  exact ⟨f, hperm.mem_iff.mp hf, hfirst⟩

theorem Reassembles.single_or_later (h : Reassembles unit key fragments message) :
    fragments = [⟨key, 0, false, message⟩] ∨ ∃ f ∈ fragments, unit ≤ f.offset := by
  obtain ⟨ordered, hperm, hcut⟩ := h
  obtain rfl | ⟨f, hf, hlater⟩ := hcut.single_or_later
  · exact Or.inl (List.perm_singleton.mp hperm.symm)
  · exact Or.inr ⟨f, hperm.mem_iff.mp hf, by omega⟩

end KernelBypass.Foundation.Fragmentation
