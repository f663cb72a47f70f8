import KernelBypass.Benchmarks.MpstatReport
import Mathlib.Algebra.Order.Field.Rat
import Mathlib.Tactic.NormNum

namespace KernelBypass.Benchmarks.MpstatClock

open Foundation TextScan Python MpstatReport

section Means

variable {float : Text → Except PyError ℚ}

/-- The rows of the intervals have the same average as the rows that are averages, in each
column and without division. -/
def Balanced (r : Report float) : Prop :=
  ∀ k ∈ selected, total k r.intervalRows * r.averages.length =
    total k r.averages * r.intervalRows.length

theorem mean_append_eq_iff (k : Column) (rows : List (Row float)) {rest : List (Row float)}
    (hrest : rest ≠ []) :
    mean k (rows ++ rest) = mean k rest ↔ total k rows * rest.length = total k rest * rows.length := by
  have hlen : (rest.length : ℚ) ≠ 0 := by simpa using hrest
  have hlen' : ((rows ++ rest).length : ℚ) ≠ 0 := by
    rw [Nat.cast_ne_zero, ← Nat.pos_iff_ne_zero, List.length_pos_iff]
    simp [hrest]
  have htotal : total k (rows ++ rest) = total k rows + total k rest := by simp [total]
  rw [mean, mean, div_eq_div_iff hlen' hlen, htotal, List.length_append, Nat.cast_add, add_mul,
    mul_add, add_left_inj]

theorem averagesOf_eq_iff (r : Report float) :
    r.averagesOf .hours24 = r.averagesOf .hours12 ↔ Balanced r := by
  have h24 : (r.kept .hours24).map (·.2) = r.intervalRows ++ r.averages := by
    simp [Report.kept, Report.intervalRows, List.map_flatMap, Function.comp_def]
  have h12 : (r.kept .hours12).map (·.2) = r.averages := by simp [Report.kept, Function.comp_def]
  rw [Report.averagesOf, Report.averagesOf, h24, h12, List.map_inj_left]
  refine forall₂_congr fun k _ ↦ ?_
  rw [Prod.mk.injEq, and_iff_right rfl]
  exact mean_append_eq_iff k r.intervalRows r.averaged

end Means

/-- With the 24-hour clock the rows of the intervals are averaged together with the rows that
are averages already, with the 12-hour clock only the latter are. -/
theorem load_mpstat_clock_iff (digits : DigitClass) (float : Text → Except PyError ℚ)
    (r : Report float) (f24 f12 : TextFile) (h24 : Prints f24.content (r.lines .hours24))
    (h12 : Prints f12.content (r.lines .hours12)) :
    (csvLoadMpstat digits float f24 = csvLoadMpstat digits float f12 ↔ Balanced r) ∧
      (graphsLoadMpstat digits float f24 = graphsLoadMpstat digits float f12 ↔ Balanced r) := by
  rw [csvLoadMpstat_run h24, csvLoadMpstat_run h12, graphsLoadMpstat_run h24,
    graphsLoadMpstat_run h12, Except.ok.injEq, averagesOf_eq_iff]
  exact ⟨Iff.rfl, Iff.rfl⟩

section Sample

variable {whole frac : Text}

theorem isWord_decimal (hwhole : whole.all Char.isDigit = true)
    (hfrac : frac.all Char.isDigit = true) : IsWord isSpace (whole ++ '.' :: frac) where
  ne_nil := List.append_ne_nil_of_right_ne_nil _ (List.cons_ne_nil _ _)
  solid := by
    refine List.forall_mem_append.mpr ⟨?_, List.forall_mem_cons.mpr ⟨rfl, ?_⟩⟩
    · exact fun c hc ↦ isSpace_of_isDigit (List.all_eq_true.mp hwhole c hc)
    · exact fun c hc ↦ isSpace_of_isDigit (List.all_eq_true.mp hfrac c hc)

def decimal (whole frac : Text) (hne : whole ≠ []) (hwhole : whole.all Char.isDigit = true)
    (hfrac : frac.all Char.isDigit = true) : Value exactFloat where
  word := ⟨whole ++ '.' :: frac, isWord_decimal hwhole hfrac⟩
  value := digitsValue (whole ++ frac) / 10 ^ frac.length
  exact := exactFloat_decimal hne hwhole hfrac

def word (s : String) (h : (!s.toList.isEmpty && s.toList.all (!isSpace ·)) = true) : Word :=
  ⟨s.toList, isWord_of_all h⟩

def zero : Value exactFloat := decimal ['0'] ['0', '0'] (List.cons_ne_nil _ _) rfl rfl

def hundred : Value exactFloat :=
  decimal ['1', '0', '0'] ['0', '0'] (List.cons_ne_nil _ _) rfl rfl

def allRow (usr idle : Value exactFloat) : Row exactFloat where
  cpu := ⟨word "all" rfl, .inr rfl⟩
  usr := usr
  nice := zero
  sys := zero
  iowait := zero
  irq := zero
  soft := zero
  steal := zero
  guest := zero
  gnice := zero
  idle := idle

def noon : Stamp where
  time24 := word "12:42:15" rfl
  time12 := word "12:42:15" rfl
  half := word "PM" rfl

def report (rows : List (Row exactFloat)) (last : Row exactFloat) : Report exactFloat where
  machine := ⟨[word "Linux" rfl, word "6.11.0-24-generic" rfl, word "(Linux)" rfl,
    word "05/01/2025" rfl, word "_x86_64_" rfl, word "(4" rfl, word "CPU)" rfl], rfl⟩
  intervals := rows.map fun row ↦ ⟨noon, noon, [row]⟩
  averages := [last]
  averaged := List.cons_ne_nil _ _

def reportFile (r : Report exactFloat) (clock : Clock) : TextFile where
  path := "benchmarks/baseline_mpstat.txt"
  stem := "baseline_mpstat"
  content := render (r.lines clock)

def idleReport : Report exactFloat := report [allRow zero hundred] (allRow zero hundred)

theorem load_mpstat_clock_idle :
    csvLoadMpstat asciiDigits exactFloat (reportFile idleReport .hours24) =
        csvLoadMpstat asciiDigits exactFloat (reportFile idleReport .hours12) ∧
      graphsLoadMpstat asciiDigits exactFloat (reportFile idleReport .hours24) =
        graphsLoadMpstat asciiDigits exactFloat (reportFile idleReport .hours12) := by
  have hiff := load_mpstat_clock_iff asciiDigits exactFloat idleReport
    (reportFile idleReport .hours24) (reportFile idleReport .hours12)
    (prints_report _ _) (prints_report _ _)
  have hbalanced : Balanced idleReport := fun k _ ↦ rfl
  exact ⟨hiff.1.mpr hbalanced, hiff.2.mpr hbalanced⟩

def busyReport : Report exactFloat :=
  report [allRow hundred zero, allRow zero hundred]
    (allRow (decimal ['5', '0'] ['2', '5'] (List.cons_ne_nil _ _) rfl rfl)
      (decimal ['4', '9'] ['7', '5'] (List.cons_ne_nil _ _) rfl rfl))

theorem load_mpstat_clock_busy :
    csvLoadMpstat asciiDigits exactFloat (reportFile busyReport .hours24) ≠
        csvLoadMpstat asciiDigits exactFloat (reportFile busyReport .hours12) ∧
      graphsLoadMpstat asciiDigits exactFloat (reportFile busyReport .hours24) ≠
        graphsLoadMpstat asciiDigits exactFloat (reportFile busyReport .hours12) := by
  have h24 : Prints (reportFile busyReport .hours24).content (busyReport.lines .hours24) :=
    prints_report _ _
  have h12 : Prints (reportFile busyReport .hours12).content (busyReport.lines .hours12) :=
    prints_report _ _
  have hne : busyReport.averagesOf .hours24 ≠ busyReport.averagesOf .hours12 := by
    rw [ne_eq, averagesOf_eq_iff]
    intro hbalanced
    have hk := hbalanced .idle (by decide)
    have hzero : digitsValue ['0', '0', '0'] = 0 := rfl
    have hhundred : digitsValue ['1', '0', '0', '0', '0'] = 10000 := rfl
    have haverage : digitsValue ['4', '9', '7', '5'] = 4975 := rfl
    norm_num [total, Report.intervalRows, busyReport, report, Row.value, allRow, zero, hundred,
      decimal, hzero, hhundred, haverage] at hk
  rw [csvLoadMpstat_run h24, csvLoadMpstat_run h12, graphsLoadMpstat_run h24,
    graphsLoadMpstat_run h12, ne_eq, Except.ok.injEq]
  exact ⟨hne, hne⟩

end Sample

end KernelBypass.Benchmarks.MpstatClock
