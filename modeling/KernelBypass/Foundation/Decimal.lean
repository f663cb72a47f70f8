import Mathlib.Data.Nat.Digits.Lemmas

namespace KernelBypass.Foundation.Decimal

def isDigit (c : UInt8) : Bool := 48 ≤ c && c ≤ 57

def isSpace (c : UInt8) : Bool := c = 32 || (9 ≤ c && c ≤ 13)

def digit (d : ℕ) : UInt8 := UInt8.ofNat (48 + d)

def printNat (n : ℕ) : List UInt8 := if n = 0 then [48] else ((Nat.digits 10 n).map digit).reverse

def printInt : ℤ → List UInt8
  | .ofNat n => printNat n
  | .negSucc n => 45 :: printNat (n + 1)

def value (ds : List UInt8) : ℕ := ds.foldl (fun acc c ↦ c.toNat - 48 + 10 * acc) 0

/-- The digits at the start of a text, as a number of the given sign, and what follows them. -/
def scanDigits (sign : ℤ) (l : List UInt8) : Option (ℤ × List UInt8) :=
  if l.takeWhile isDigit = [] then none
  else some (sign * value (l.takeWhile isDigit), l.dropWhile isDigit)

/-- The number at the start of a text, behind white space and with or without a sign. -/
def scanInt (l : List UInt8) : Option (ℤ × List UInt8) :=
  match l.dropWhile isSpace with
  | 45 :: l => scanDigits (-1) l
  | 43 :: l => scanDigits 1 l
  | l => scanDigits 1 l

variable {d n : ℕ} {l : List UInt8}

theorem toNat_digit (hd : d < 10) : (digit d).toNat = 48 + d :=
  UInt8.toNat_ofNat_of_lt' (by change 48 + d < 256; omega)

theorem isDigit_digit (hd : d < 10) : isDigit (digit d) = true := by
  have hnat := toNat_digit hd
  rw [isDigit, Bool.and_eq_true, decide_eq_true_eq, decide_eq_true_eq, UInt8.le_iff_toNat_le,
    UInt8.le_iff_toNat_le, hnat]
  exact ⟨by change 48 ≤ 48 + d; omega, by change 48 + d ≤ 57; omega⟩

theorem value_reverse_digits {ds : List ℕ} (hds : ∀ d ∈ ds, d < 10) :
    value (ds.map digit).reverse = Nat.ofDigits 10 ds := by
  induction ds with
  | nil => rfl
  | cons d ds ih =>
    obtain ⟨hd, hds⟩ := List.forall_mem_cons.mp hds
    rw [List.map_cons, List.reverse_cons, value, List.foldl_append, List.foldl_cons, List.foldl_nil,
      toNat_digit hd, Nat.ofDigits_cons, ← ih hds, Nat.add_sub_cancel_left]
    rfl

theorem value_printNat (n : ℕ) : value (printNat n) = n := by
  unfold printNat
  split_ifs with hn
  · exact hn.symm
  · rw [value_reverse_digits fun d hd ↦ Nat.digits_lt_base (by decide) hd, Nat.ofDigits_digits]

theorem printNat_ne_nil (n : ℕ) : printNat n ≠ [] := by
  unfold printNat
  split_ifs with hn
  · exact List.cons_ne_nil _ _
  · simpa [Nat.digits_eq_nil_iff_eq_zero] using hn

theorem isDigit_of_mem_printNat {c : UInt8} (hc : c ∈ printNat n) : isDigit c = true := by
  unfold printNat at hc
  split_ifs at hc
  · rw [List.mem_singleton.mp hc]
    rfl
  · obtain ⟨d, hd, rfl⟩ := List.mem_map.mp (List.mem_reverse.mp hc)
    exact isDigit_digit (Nat.digits_lt_base (by decide) hd)

def Ends (l : List UInt8) : Prop := ∀ c ∈ l.head?, isDigit c = false

theorem scanDigits_printNat (sign : ℤ) (n : ℕ) (hl : Ends l) :
    scanDigits sign (printNat n ++ l) = some (sign * n, l) := by
  have hstop : l.takeWhile isDigit = [] ∧ l.dropWhile isDigit = l := by
    cases l with
    | nil => exact ⟨rfl, rfl⟩
    | cons c l =>
      have hc : ¬ isDigit c = true := by simp [hl c rfl]
      exact ⟨List.takeWhile_cons_of_neg hc, List.dropWhile_cons_of_neg hc⟩
  have hall : ∀ c ∈ printNat n, isDigit c = true := fun c ↦ isDigit_of_mem_printNat
  rw [scanDigits, List.takeWhile_append_of_pos hall, List.dropWhile_append_of_pos hall, hstop.1,
    hstop.2, List.append_nil, if_neg (printNat_ne_nil n), value_printNat]

theorem scanInt_of_isDigit {c : UInt8} (hc : isDigit c = true) :
    scanInt (c :: l) = scanDigits 1 (c :: l) := by
  have hspace : ¬ isSpace c = true := by
    simp only [isDigit, isSpace, Bool.and_eq_true, Bool.or_eq_true, decide_eq_true_eq,
      UInt8.le_iff_toNat_le, ← UInt8.toNat_inj, UInt8.reduceToNat] at hc ⊢
    omega
  rw [scanInt, List.dropWhile_cons_of_neg hspace]
  split
  · rename_i hminus
    rw [(List.cons.inj hminus).1] at hc
    cases hc
  · rename_i hplus
    rw [(List.cons.inj hplus).1] at hc
    cases hc
  · rfl

/-- A number that has been printed is read again. -/
theorem scanInt_printInt (n : ℤ) (hl : Ends l) : scanInt (printInt n ++ l) = some (n, l) := by
  cases n with
  | ofNat n =>
    obtain ⟨c, r, hcr⟩ := List.exists_cons_of_ne_nil (printNat_ne_nil n)
    have hc : isDigit c = true := isDigit_of_mem_printNat (hcr ▸ List.mem_cons_self)
    have hscan := scanDigits_printNat 1 n hl
    rw [hcr, List.cons_append, ← scanInt_of_isDigit hc, one_mul] at hscan
    rw [printInt, hcr, List.cons_append]
    exact hscan
  | negSucc n => exact (scanDigits_printNat (-1) (n + 1) hl).trans (by rw [neg_one_mul]; rfl)

end KernelBypass.Foundation.Decimal
