import KernelBypass.Foundation.TextScan
import Mathlib.Data.Rat.Floor

namespace KernelBypass.Benchmarks.Python

open Foundation TextScan

inductive PyError
  | valueError (message : String)
  | indexError (message : String)

variable {α : Type}

/-- `l[k]`, where a negative index counts from the end. -/
def getItem (l : List α) (k : ℤ) : Except PyError α :=
  let i := if k < 0 then k + l.length else k
  match if i < 0 then none else l[i.toNat]? with
  | some a => .ok a
  | none => .error (.indexError "list index out of range")

/-- `round`: to the nearest integer, and a half to the even one. -/
def roundHalfEven (x : ℚ) : ℤ :=
  if x - ⌊x⌋ < 1 / 2 ∨ x - ⌊x⌋ = 1 / 2 ∧ ⌊x⌋ % 2 = 0 then ⌊x⌋ else ⌊x⌋ + 1

theorem getItem_natCast {l : List α} {k : ℕ} {a : α} (h : l[k]? = some a) : getItem l k = .ok a := by
  simp only [getItem, if_neg (show ¬ (k : ℤ) < 0 by omega), Int.toNat_natCast, h]

theorem roundHalfEven_div (m : ℕ) {d : ℕ} (hd : 0 < d) :
    roundHalfEven (m / d) = (if 2 * (m % d) < d ∨ 2 * (m % d) = d ∧ m / d % 2 = 0 then m / d
      else m / d + 1 : ℕ) := by
  have hd' : (0 : ℚ) < d := by exact_mod_cast hd
  have hfloor : ⌊(m : ℚ) / d⌋ = (m / d : ℕ) := Rat.floor_natCast_div_natCast m d
  have hfract : (m : ℚ) / d - ((m / d : ℕ) : ℤ) = (m % d : ℕ) / d := by
    have hm : (m : ℚ) = d * (m / d : ℕ) + (m % d : ℕ) := by
      exact_mod_cast (Nat.div_add_mod m d).symm
    rw [hm, Int.cast_natCast]
    field_simp
    ring
  have hlt : ((m % d : ℕ) : ℚ) / d < 1 / 2 ↔ 2 * (m % d) < d := by
    rw [div_lt_div_iff₀ hd' two_pos, one_mul, Nat.mul_comm]
    exact_mod_cast Iff.rfl
  have heq : ((m % d : ℕ) : ℚ) / d = 1 / 2 ↔ 2 * (m % d) = d := by
    rw [div_eq_div_iff hd'.ne' two_ne_zero, one_mul, Nat.mul_comm]
    exact_mod_cast Iff.rfl
  have heven : ((m / d : ℕ) : ℤ) % 2 = 0 ↔ m / d % 2 = 0 := by omega
  rw [roundHalfEven, hfloor, hfract]
  simp only [hlt, heq, heven]
  split_ifs
  · rfl
  · rfl

section Texts

abbrev Text := List Char

def isLineBreak (c : Char) : Bool :=
  [0x0A, 0x0B, 0x0C, 0x0D, 0x1C, 0x1D, 0x1E, 0x85, 0x2028, 0x2029].contains c.toNat

def isSpace (c : Char) : Bool :=
  [0x09, 0x0A, 0x0B, 0x0C, 0x0D, 0x1C, 0x1D, 0x1E, 0x1F, 0x20, 0x85, 0xA0, 0x1680, 0x2000, 0x2001,
    0x2002, 0x2003, 0x2004, 0x2005, 0x2006, 0x2007, 0x2008, 0x2009, 0x200A, 0x2028, 0x2029, 0x202F,
    0x205F, 0x3000].contains c.toNat

/-- A class of digits among the characters, such as that of `\d` in a pattern or that of
`str.isdigit`; both hold more than the ASCII digits. -/
structure DigitClass where
  isDigit : Char → Bool
  ascii : ∀ c, c.isDigit → isDigit c
  noLetter : ∀ c, c.isAlpha → isDigit c = false
  noBreak : ∀ c, isLineBreak c → isDigit c = false

theorem isDigit_iff (c : Char) : c.isDigit = true ↔ 48 ≤ c.toNat ∧ c.toNat ≤ 57 := by
  simp [Char.isDigit, UInt32.le_iff_toNat_le]

theorem isDigit_of_isAlpha {c : Char} (h : c.isAlpha = true) : c.isDigit = false := by
  change (decide (65 ≤ c.val ∧ c.val ≤ 90) || decide (97 ≤ c.val) && decide (c.val ≤ 122)) = true
    at h
  simp [UInt32.le_iff_toNat_le] at h
  rw [← Bool.not_eq_true, isDigit_iff]
  omega

theorem isDigit_of_isLineBreak {c : Char} (h : isLineBreak c = true) : c.isDigit = false := by
  simp [isLineBreak] at h
  rw [← Bool.not_eq_true, isDigit_iff]
  omega

theorem isSpace_of_isLineBreak {c : Char} (h : isLineBreak c = true) : isSpace c = true := by
  rw [isLineBreak, List.contains_iff_mem] at h
  rw [isSpace, List.contains_iff_mem]
  refine List.Sublist.mem h ?_
  decide

theorem isSpace_of_isDigit {c : Char} (h : c.isDigit = true) : isSpace c = false := by
  rw [isDigit_iff] at h
  simp only [isSpace, List.contains_eq_mem, decide_eq_false_iff_not, List.mem_cons,
    List.not_mem_nil, or_false]
  omega

def asciiDigits : DigitClass where
  isDigit := Char.isDigit
  ascii _ h := h
  noLetter _ h := isDigit_of_isAlpha h
  noBreak _ h := isDigit_of_isLineBreak h

def digitsValue (s : Text) : ℕ := s.foldl (fun n c ↦ 10 * n + (c.toNat - 48)) 0

/-- `float` of a decimal, without rounding; other texts are not read. -/
def exactFloat (s : Text) : Except PyError ℚ :=
  let whole := s.takeWhile Char.isDigit
  let frac := (s.dropWhile Char.isDigit).drop 1
  if s = whole ++ '.' :: frac ∧ whole ≠ [] ∧ frac.all Char.isDigit then
    .ok (digitsValue (whole ++ frac) / 10 ^ frac.length)
  else .error (.valueError ("could not convert string to float: '" ++ String.ofList s ++ "'"))

theorem exactFloat_decimal {whole frac : Text} (hne : whole ≠ []) (hwhole : whole.all Char.isDigit = true)
    (hfrac : frac.all Char.isDigit = true) :
    exactFloat (whole ++ '.' :: frac) = .ok (digitsValue (whole ++ frac) / 10 ^ frac.length) := by
  have hdigits := List.all_eq_true.mp hwhole
  have hpoint : ∀ c ∈ ('.' :: frac).head?, Char.isDigit c = false := by
    rintro _ ⟨⟩
    rfl
  have htake := takeWhile_eq_of_head? hdigits hpoint
  have hdrop : (whole ++ '.' :: frac).dropWhile Char.isDigit = '.' :: frac := by
    rw [List.dropWhile_append_of_pos hdigits, List.dropWhile_cons_of_neg Bool.false_ne_true]
  rw [exactFloat, htake, hdrop]
  exact if_pos ⟨rfl, hne, hfrac⟩

def splitlines : Text → List Text
  | [] => []
  | '\r' :: '\n' :: t => [] :: splitlines t
  | c :: t => if isLineBreak c then [] :: splitlines t else glue c (splitlines t)

def split (t : Text) : List Text := words isSpace t

def universalNewlines : Text → Text
  | [] => []
  | '\r' :: '\n' :: t => '\n' :: universalNewlines t
  | c :: t => (if c = '\r' then '\n' else c) :: universalNewlines t

structure TextFile where
  path : String
  stem : String
  content : Text

def TextFile.readText (f : TextFile) : Text := universalNewlines f.content

/-- The lines over which `for line in f` runs, with their ends. -/
def TextFile.lines (f : TextFile) : List Text := chunks (· = '\n') (universalNewlines f.content)

theorem return_notMem_universalNewlines (t : Text) : '\r' ∉ universalNewlines t := by
  fun_induction universalNewlines t with
  | case1 => simp
  | case2 t ih => simpa using ih
  | case3 c t _ ih =>
    rw [List.mem_cons, not_or]
    refine ⟨?_, ih⟩
    split_ifs with hc
    · decide
    · exact Ne.symm hc

theorem universalNewlines_eq_self {t : Text} (h : '\r' ∉ t) : universalNewlines t = t := by
  fun_induction universalNewlines t with
  | case1 => rfl
  | case2 t ih => simp at h
  | case3 c t _ ih =>
    have hc : c ≠ '\r' := fun hc ↦ h (hc ▸ List.mem_cons_self)
    rw [if_neg hc, ih (List.not_mem_of_not_mem_cons h)]

theorem splitlines_eq_pieces {t : Text} (h : '\r' ∉ t) : splitlines t = pieces isLineBreak t := by
  fun_induction splitlines t with
  | case1 => rfl
  | case2 t ih => simp at h
  | case3 c t _ hc ih => rw [pieces, if_pos hc, ih (List.not_mem_of_not_mem_cons h)]
  | case4 c t _ hc ih => rw [pieces, if_neg hc, ih (List.not_mem_of_not_mem_cons h)]

theorem splitlines_line {f : TextFile} {line : Text} (h : line ∈ f.lines) :
    splitlines line = pieces isLineBreak line := by
  apply splitlines_eq_pieces
  intro hmem
  have hflat : '\r' ∈ f.lines.flatten := List.mem_flatten_of_mem h hmem
  rw [TextFile.lines, flatten_chunks] at hflat
  exact return_notMem_universalNewlines _ hflat

/-- Every end of a line in the file ends a line of the text, which may have more. -/
theorem splitlines_readText (f : TextFile) :
    splitlines f.readText = f.lines.flatMap splitlines := by
  have hbreak : ∀ c : Char, decide (c = '\n') = true → isLineBreak c = true := by
    intro c hc
    rw [of_decide_eq_true hc]
    rfl
  rw [TextFile.readText, splitlines_eq_pieces (return_notMem_universalNewlines _),
    List.flatMap_congr fun line hline ↦ splitlines_line hline]
  exact pieces_eq_flatMap hbreak _

end Texts

end KernelBypass.Benchmarks.Python
