import KernelBypass.Foundation.Trace
import Mathlib.Data.Multiset.AddSub

namespace KernelBypass.Foundation.StopAndWait

/-- A client that numbers its requests and waits for an answer to each, and the numbers of
the requests and answers on their way. -/
structure State where
  next : ℕ
  waiting : Bool
  inFlight : Multiset ℕ
  -- which request was waiting and which one the answer was for
  log : List (ℕ × ℕ)

inductive Event
  | sent
  | taken
  | copied
  | silent
  deriving DecidableEq

/-- The client takes any answer that arrives for the one it waits for. -/
inductive Step : Event → State → State → Prop
  | sent (n : ℕ) (bag : Multiset ℕ) (log : List (ℕ × ℕ)) :
      Step .sent ⟨n, false, bag, log⟩ ⟨n, true, n ::ₘ bag, log⟩
  | taken (n k : ℕ) (bag : Multiset ℕ) (log : List (ℕ × ℕ)) :
      Step .taken ⟨n, true, k ::ₘ bag, log⟩ ⟨n + 1, false, bag, (n, k) :: log⟩
  | copied (n k : ℕ) (waiting : Bool) (bag : Multiset ℕ) (log : List (ℕ × ℕ)) :
      Step .copied ⟨n, waiting, k ::ₘ bag, log⟩ ⟨n, waiting, k ::ₘ k ::ₘ bag, log⟩
  | silent (s : State) : Step .silent s s

def start : State := ⟨0, false, 0, []⟩

structure Earlier (s : State) : Prop where
  inFlight : ∀ k ∈ s.inFlight, k < s.next + s.waiting.toNat
  log : ∀ p ∈ s.log, p.2 ≤ p.1

structure Matched (s : State) : Prop where
  inFlight : s.inFlight = if s.waiting then {s.next} else 0
  log : ∀ p ∈ s.log, p.2 = p.1

variable {e : Event} {es : List Event} {s t : State}

theorem Step.earlier (h : Step e s t) (hs : Earlier s) : Earlier t := by
  cases h with
  | sent n bag log =>
    refine ⟨?_, hs.log⟩
    intro k hk
    rcases Multiset.mem_cons.mp hk with rfl | hk
    · exact Nat.lt_succ_self k
    · exact Nat.lt_succ_of_lt (hs.inFlight k hk)
  | taken n k bag log =>
    have hk : k < n + 1 := hs.inFlight k (Multiset.mem_cons_self k bag)
    constructor
    · intro j hj
      exact hs.inFlight j (Multiset.mem_cons_of_mem hj)
    · intro p hp
      rcases List.mem_cons.mp hp with rfl | hp
      · exact Nat.le_of_lt_succ hk
      · exact hs.log p hp
  | copied n k waiting bag log =>
    refine ⟨?_, hs.log⟩
    intro j hj
    rcases Multiset.mem_cons.mp hj with rfl | hj
    · exact hs.inFlight j (Multiset.mem_cons_self j bag)
    · exact hs.inFlight j hj
  | silent s => exact hs

theorem Step.matched (h : Step e s t) (he : e ≠ .copied) (hs : Matched s) : Matched t := by
  cases h with
  | sent n bag log =>
    obtain rfl : bag = 0 := hs.inFlight
    exact ⟨rfl, hs.log⟩
  | taken n k bag log =>
    have hbag : k ::ₘ bag = {n} := hs.inFlight
    obtain ⟨rfl, rfl⟩ := (Multiset.singleton_eq_cons_iff bag).mp hbag.symm
    refine ⟨rfl, ?_⟩
    intro p hp
    rcases List.mem_cons.mp hp with rfl | hp
    · rfl
    · exact hs.log p hp
  | copied n k waiting bag log => exact absurd rfl he
  | silent s => exact hs

theorem trace_earlier (h : Trace Step es start t) : Earlier t :=
  h.invariant (P := fun _ ↦ True) (fun _ _ _ _ hstep hs ↦ hstep.earlier hs) (fun _ _ ↦ trivial)
    ⟨by simp [start], by simp [start]⟩

theorem trace_matched (h : Trace Step es start t) (hes : .copied ∉ es) : Matched t := by
  refine h.invariant (P := (· ≠ .copied)) (fun _ _ _ he hstep hs ↦ hstep.matched he hs) ?_
    ⟨rfl, by simp [start]⟩
  rintro e he rfl
  exact hes he

end KernelBypass.Foundation.StopAndWait
