import KernelBypass.Benchmarks.MpstatReport
import KernelBypass.Benchmarks.Percentile
import KernelBypass.Benchmarks.PingAgreement
import Mathlib.Algebra.Order.BigOperators.Group.List
import Mathlib.Tactic.Linarith

namespace KernelBypass.Benchmarks.ResultsTable

open Foundation OrderStatistics Collect Python Percentile PingSamples PingAgreement MpstatReport

section Statistics

variable (data : List ℚ)

def statsMean : Except PyError ℚ :=
  if data.isEmpty then .error (.valueError "mean requires at least one data point")
  else .ok (data.sum / data.length)

def statsMedian : Except PyError ℚ :=
  let i : ℕ := data.length / 2
  if data.length = 0 then .error (.valueError "no median for empty data")
  else if data.length % 2 = 1 then getItem (sorted data) i
  else do
    let a ← getItem (sorted data) (i - 1 : ℕ)
    let b ← getItem (sorted data) i
    return (a + b) / 2

/-- `statistics.stdev`, with the rounded square root as a parameter. -/
def statsStdev (sqrt : ℚ → ℚ) : Except PyError ℚ :=
  if data.length < 2 then .error (.valueError "stdev requires at least two data points")
  else
    let mean := data.sum / data.length
    .ok (sqrt ((data.map fun x ↦ (x - mean) ^ 2).sum / (data.length - 1)))

def minimum : Except PyError ℚ :=
  data.min?.elim (.error (.valueError "min() iterable argument is empty")) .ok

def maximum : Except PyError ℚ :=
  data.max?.elim (.error (.valueError "max() iterable argument is empty")) .ok

variable {data}

theorem minimum_eq {v : ℚ} (hv : data.min? = some v) : minimum data = .ok v := by
  rw [minimum, hv]
  rfl

theorem maximum_eq {v : ℚ} (hv : data.max? = some v) : maximum data = .ok v := by
  rw [maximum, hv]
  rfl

theorem statsMean_eq (hne : data ≠ []) : statsMean data = .ok (data.sum / data.length) :=
  if_neg (by simpa using hne)

/-- The median lies between the two elements in the middle, which may be one. -/
theorem exists_median (hne : data ≠ []) : ∃ m lo hi, statsMedian data = .ok m ∧
    (sorted data)[(data.length - 1) / 2]? = some lo ∧ (sorted data)[data.length / 2]? = some hi ∧
    lo ≤ m ∧ m ≤ hi := by
  have hpos := List.length_pos_iff.mpr hne
  obtain ⟨lo, hlo⟩ := exists_sorted (l := data) (k := (data.length - 1) / 2) (by omega)
  obtain ⟨hi, hhi⟩ := exists_sorted (l := data) (k := data.length / 2) (by omega)
  have hle : lo ≤ hi := sorted_mono hlo hhi (by omega)
  by_cases hodd : data.length % 2 = 1
  · have heq : (data.length - 1) / 2 = data.length / 2 := by omega
    obtain rfl : lo = hi := Option.some_inj.mp (hlo.symm.trans (heq ▸ hhi))
    refine ⟨lo, lo, lo, ?_, hlo, hhi, le_rfl, le_rfl⟩
    rw [statsMedian, if_neg hpos.ne', if_pos hodd, getItem_natCast hhi]
  · have heq : (data.length - 1) / 2 = data.length / 2 - 1 := by omega
    refine ⟨(lo + hi) / 2, lo, hi, ?_, hlo, hhi, by linarith, by linarith⟩
    rw [statsMedian, if_neg hpos.ne', if_neg hodd, getItem_natCast (heq ▸ hlo),
      getItem_natCast hhi]
    rfl

theorem mean_between {lo hi : ℚ} (hne : data ≠ []) (hlo : ∀ x ∈ data, lo ≤ x)
    (hhi : ∀ x ∈ data, x ≤ hi) : lo ≤ data.sum / data.length ∧ data.sum / data.length ≤ hi := by
  have hpos : (0 : ℚ) < data.length := Nat.cast_pos.mpr (List.length_pos_iff.mpr hne)
  rw [le_div_iff₀ hpos, div_le_iff₀ hpos, mul_comm lo, mul_comm hi, ← nsmul_eq_mul,
    ← nsmul_eq_mul]
  exact ⟨List.card_nsmul_le_sum data lo hlo, List.sum_le_card_nsmul data hi hhi⟩

theorem exists_pct {p : ℕ} (hne : data ≠ []) (hp : 0 < p) (hp' : p ≤ 100) :
    ∃ v, pct data p = .ok (some v) ∧ (sorted data)[roundedIndex data.length p]? = some v := by
  have hpos := List.length_pos_iff.mpr hne
  obtain ⟨v, hv⟩ := exists_sorted (roundedIndex_lt hpos hp')
  exact ⟨v, (pct_eq_iff hpos hp hp').1.mpr hv, hv⟩

end Statistics

section Table

inductive Metric
  | pingMean
  | pingMedian
  | pingStd
  | pingMin
  | ping95p
  | ping99p
  | pingMax
  | floodMean
  | flood99p
  | cpuBusy
  | cpuUsr
  | cpuSys
  | cpuIrq
  | cpuSoft
  deriving DecidableEq

def Metric.name : Metric → String
  | .pingMean => "ping_mean_ms"
  | .pingMedian => "ping_median_ms"
  | .pingStd => "ping_std_ms"
  | .pingMin => "ping_min_ms"
  | .ping95p => "ping_95p_ms"
  | .ping99p => "ping_99p_ms"
  | .pingMax => "ping_max_ms"
  | .floodMean => "flood_mean_ms"
  | .flood99p => "flood_99p_ms"
  | .cpuBusy => "cpu_busy_pct"
  | .cpuUsr => "cpu_usr_pct"
  | .cpuSys => "cpu_sys_pct"
  | .cpuIrq => "cpu_irq_pct"
  | .cpuSoft => "cpu_soft_pct"

def metrics : List Metric :=
  [.pingMean, .pingMedian, .pingStd, .pingMin, .ping95p, .ping99p, .pingMax, .floodMean, .flood99p,
    .cpuBusy, .cpuUsr, .cpuSys, .cpuIrq, .cpuSoft]

structure Artefacts where
  ipv4 : List ℚ
  flood : List ℚ
  cpu : List (Column × ℚ)

/-- `cpu[k]`. The keys that are asked for are those that `load_mpstat` sets. -/
def Artefacts.load (a : Artefacts) (k : Column) : ℚ := (a.cpu.lookup k).getD 0

variable (sqrt : ℚ → ℚ)

def Metric.value (a : Artefacts) : Metric → Except PyError (Option ℚ)
  | .pingMean => some <$> statsMean a.ipv4
  | .pingMedian => some <$> statsMedian a.ipv4
  | .pingStd => some <$> statsStdev a.ipv4 sqrt
  | .pingMin => some <$> minimum a.ipv4
  | .ping95p => pct a.ipv4 95
  | .ping99p => pct a.ipv4 99
  | .pingMax => some <$> maximum a.ipv4
  | .floodMean => some <$> statsMean a.flood
  | .flood99p => pct a.flood 99
  | .cpuBusy => .ok (some (100 - a.load .idle))
  | .cpuUsr => .ok (some (a.load .usr))
  | .cpuSys => .ok (some (a.load .sys))
  | .cpuIrq => .ok (some (a.load .irq))
  | .cpuSoft => .ok (some (a.load .soft))

def rows (base xdp : Artefacts) : Except PyError (List (String × Option ℚ × Option ℚ)) :=
  metrics.mapM fun m ↦ do
    let baseline ← m.value sqrt base
    let x ← m.value sqrt xdp
    return (m.name, baseline, x)

structure Files where
  ipv4 : TextFile
  flood : TextFile
  mpstat : TextFile

-- `decimals` are the characters that `\d` of `parse_ping` matches, `digits` those for which
-- `str.isdigit` of `load_mpstat` holds, which are more.
variable (decimals digits : DigitClass) (float : Text → Except PyError ℚ)

def loadArtefacts (base xdp : Files) : Except PyError (Artefacts × Artefacts) := do
  let ipv4Base ← csvParsePing decimals float base.ipv4
  let ipv4Xdp ← csvParsePing decimals float xdp.ipv4
  let floodBase ← csvParsePing decimals float base.flood
  let floodXdp ← csvParsePing decimals float xdp.flood
  let cpuBase ← csvLoadMpstat digits float base.mpstat
  let cpuXdp ← csvLoadMpstat digits float xdp.mpstat
  return (⟨ipv4Base.map Sample.value, floodBase.map Sample.value, cpuBase⟩,
    ⟨ipv4Xdp.map Sample.value, floodXdp.map Sample.value, cpuXdp⟩)

def resultsTable (base xdp : Files) : Except PyError (List (String × Option ℚ × Option ℚ)) := do
  let (base, xdp) ← loadArtefacts decimals digits float base xdp
  rows sqrt base xdp

def figure (a : Artefacts) (m : Metric) : Option ℚ := (m.value sqrt a).toOption.join

/-- The figures of a column are all there and fit together. -/
def Consistent (f : Metric → Option ℚ) : Prop :=
  (∀ m, (f m).isSome) ∧ ∃ min median p95 p99 max mean,
    f .pingMin = some min ∧ f .pingMedian = some median ∧ f .ping95p = some p95 ∧
    f .ping99p = some p99 ∧ f .pingMax = some max ∧ f .pingMean = some mean ∧
    min ≤ median ∧ median ≤ p95 ∧ p95 ≤ p99 ∧ p99 ≤ max ∧ min ≤ mean ∧ mean ≤ max

variable {sqrt decimals digits float} {a base xdp : Artefacts} {m : Metric}

theorem half_le_roundedIndex {n : ℕ} (hn : 2 ≤ n) : n / 2 ≤ roundedIndex n 95 := by
  unfold roundedIndex
  split_ifs <;> omega

theorem roundedIndex_le_roundedIndex (n : ℕ) : roundedIndex n 95 ≤ roundedIndex n 99 := by
  unfold roundedIndex
  split_ifs <;> omega

theorem figure_eq {v : Option ℚ} (h : m.value sqrt a = .ok v) : figure sqrt a m = v := by
  rw [figure, h]
  rfl

theorem figure_eq_some {x : Except PyError ℚ} {v : ℚ} (hvalue : m.value sqrt a = some <$> x)
    (hx : x = .ok v) : figure sqrt a m = some v := by
  rw [hx] at hvalue
  exact figure_eq hvalue

/-- With two samples to take the deviation of, every metric has a value. -/
theorem exists_value (htwo : 2 ≤ a.ipv4.length) (hflood : a.flood ≠ []) (m : Metric) :
    ∃ v : ℚ, m.value sqrt a = .ok (some v) := by
  have hne : a.ipv4 ≠ [] := List.ne_nil_of_length_pos (by omega)
  cases m with
  | pingMean => exact ⟨_, congrArg (some <$> ·) (statsMean_eq hne)⟩
  | pingMedian =>
    obtain ⟨v, _, _, hv, -⟩ := exists_median hne
    exact ⟨v, congrArg (some <$> ·) hv⟩
  | pingStd => exact ⟨_, congrArg (some <$> ·) (if_neg (by omega))⟩
  | pingMin =>
    obtain ⟨v, hv⟩ := Option.isSome_iff_exists.mp (List.isSome_min?_of_ne_nil hne)
    exact ⟨v, congrArg (some <$> ·) (minimum_eq hv)⟩
  | pingMax =>
    obtain ⟨v, hv⟩ := Option.isSome_iff_exists.mp (List.isSome_max?_of_ne_nil hne)
    exact ⟨v, congrArg (some <$> ·) (maximum_eq hv)⟩
  | ping95p =>
    obtain ⟨v, hv, -⟩ := exists_pct (p := 95) hne (by decide) (by decide)
    exact ⟨v, hv⟩
  | ping99p =>
    obtain ⟨v, hv, -⟩ := exists_pct (p := 99) hne (by decide) (by decide)
    exact ⟨v, hv⟩
  | floodMean => exact ⟨_, congrArg (some <$> ·) (statsMean_eq hflood)⟩
  | flood99p =>
    obtain ⟨v, hv, -⟩ := exists_pct (p := 99) hflood (by decide) (by decide)
    exact ⟨v, hv⟩
  | _ => exact ⟨_, rfl⟩

theorem value_eq_ok (htwo : 2 ≤ a.ipv4.length) (hflood : a.flood ≠ []) (m : Metric) :
    m.value sqrt a = .ok (figure sqrt a m) := by
  obtain ⟨v, hv⟩ := exists_value htwo hflood m
  rw [hv, figure_eq hv]

theorem consistent_figure (htwo : 2 ≤ a.ipv4.length) (hflood : a.flood ≠ []) :
    Consistent (figure sqrt a) := by
  have hne : a.ipv4 ≠ [] := List.ne_nil_of_length_pos (by omega)
  obtain ⟨min, hmin⟩ := Option.isSome_iff_exists.mp (List.isSome_min?_of_ne_nil hne)
  obtain ⟨max, hmax⟩ := Option.isSome_iff_exists.mp (List.isSome_max?_of_ne_nil hne)
  have hlower := (List.min?_eq_some_iff.mp hmin).2
  have hupper := (List.max?_eq_some_iff.mp hmax).2
  obtain ⟨median, lo, hi, hmedian, hlo, hhi, hlo_le, hle_hi⟩ := exists_median hne
  obtain ⟨p95, hpct95, hp95⟩ := exists_pct (p := 95) hne (by decide) (by decide)
  obtain ⟨p99, hpct99, hp99⟩ := exists_pct (p := 99) hne (by decide) (by decide)
  obtain ⟨hmean, hmean'⟩ := mean_between hne hlower hupper
  refine ⟨fun m ↦ ?_, min, median, p95, p99, max, _, figure_eq_some rfl (minimum_eq hmin),
    figure_eq_some rfl hmedian, figure_eq hpct95, figure_eq hpct99,
    figure_eq_some rfl (maximum_eq hmax), figure_eq_some rfl (statsMean_eq hne), ?_, ?_, ?_, ?_,
    hmean, hmean'⟩
  · obtain ⟨v, hv⟩ := exists_value htwo hflood m
    rw [figure_eq hv]
    rfl
  · exact (hlower lo (mem_of_sorted hlo)).trans hlo_le
  · -- the median is at most the upper one of the two elements in the middle
    exact hle_hi.trans (sorted_mono hhi hp95 (half_le_roundedIndex htwo))
  · exact sorted_mono hp95 hp99 (roundedIndex_le_roundedIndex _)
  · exact hupper p99 (mem_of_sorted hp99)

theorem two_le_of_pingStd {v : Option ℚ} (h : Metric.pingStd.value sqrt a = .ok v) :
    2 ≤ a.ipv4.length := by
  by_contra hlt
  rw [Metric.value, statsStdev, if_pos (by omega)] at h
  cases h

/-- The table is built exactly where both columns have two samples for the deviation. -/
theorem rows_eq_ok_iff (hflood : base.flood ≠ [] ∧ xdp.flood ≠ [])
    {table : List (String × Option ℚ × Option ℚ)} :
    rows sqrt base xdp = .ok table ↔ 2 ≤ base.ipv4.length ∧ 2 ≤ xdp.ipv4.length ∧
      table = metrics.map fun m ↦ (m.name, figure sqrt base m, figure sqrt xdp m) := by
  have hbuilt : 2 ≤ base.ipv4.length → 2 ≤ xdp.ipv4.length → rows sqrt base xdp =
      .ok (metrics.map fun m ↦ (m.name, figure sqrt base m, figure sqrt xdp m)) := by
    intro hbase hxdp
    refine mapM_eq_ok fun m _ ↦ ?_
    rw [value_eq_ok hbase hflood.1, value_eq_ok hxdp hflood.2]
    rfl
  constructor
  · intro hrows
    -- of all metrics only the deviation asks for a second sample
    obtain ⟨y, hy⟩ := exists_mapM_eq_ok_iff.mp ⟨table, hrows⟩ .pingStd (by decide)
    obtain ⟨b, hb, hy⟩ := bind_eq_ok_iff.mp hy
    obtain ⟨x, hx, -⟩ := bind_eq_ok_iff.mp hy
    have hbase := two_le_of_pingStd hb
    have hxdp := two_le_of_pingStd hx
    exact ⟨hbase, hxdp, Except.ok.inj (hrows.symm.trans (hbuilt hbase hxdp))⟩
  · rintro ⟨hbase, hxdp, rfl⟩
    exact hbuilt hbase hxdp

theorem csvParsePing_ne_nil {f : TextFile} {l : List (Sample ℚ)}
    (h : csvParsePing digits float f = .ok l) : l.map Sample.value ≠ [] := by
  have hne := (csvParsePing_eq_ok_iff.mp h).2
  exact fun hnil ↦ hne (List.map_eq_nil_iff.mp hnil)

theorem keys_addRow {sums sums' : List (Column × ℚ)} {parts : List Text}
    (h : addRow float sums parts = .ok sums') : sums'.map Prod.fst = sums.map Prod.fst := by
  rw [addRow, mapM_eq_ok_iff] at h
  refine (map_eq_map_of_forall₂ h fun s t hst ↦ ?_).symm
  obtain ⟨v, -, hv⟩ := bind_eq_ok_iff.mp hst
  obtain rfl : (s.1, s.2 + v) = t := Except.ok.inj hv
  rfl

theorem keys_foldlM_addRow {keep : List (List Text)} {sums sums' : List (Column × ℚ)}
    (h : keep.foldlM (addRow float) sums = .ok sums') : sums'.map Prod.fst = sums.map Prod.fst := by
  induction keep generalizing sums with
  | nil => exact congrArg (List.map Prod.fst) (Except.ok.inj h).symm
  | cons parts keep ih =>
    rw [List.foldlM_cons, bind_eq_ok_iff] at h
    obtain ⟨mid, hmid, h⟩ := h
    exact (ih h).trans (keys_addRow hmid)

/-- `load_mpstat` sets the keys that the table asks for. -/
theorem keys_csvLoadMpstat {f : TextFile} {l : List (Column × ℚ)}
    (h : csvLoadMpstat digits float f = .ok l) : l.map Prod.fst = selected := by
  rw [csvLoadMpstat] at h
  split_ifs at h with hempty
  · cases h
  · obtain ⟨-, -, h⟩ := bind_eq_ok_iff.mp h
    obtain ⟨sums, hsums, h⟩ := bind_eq_ok_iff.mp h
    rw [← Except.ok.inj h, List.map_map]
    exact keys_foldlM_addRow hsums

structure Loaded (a : Artefacts) : Prop where
  flood : a.flood ≠ []
  cpu : a.cpu.map Prod.fst = selected

theorem loaded_of_loadArtefacts {files files' : Files}
    (h : loadArtefacts decimals digits float files files' = .ok (base, xdp)) :
    Loaded base ∧ Loaded xdp := by
  simp only [loadArtefacts, bind_eq_ok_iff] at h
  obtain ⟨_, -, _, -, floodBase, hbase, floodXdp, hxdp, _, hcpu, _, hcpu', heq⟩ := h
  obtain ⟨rfl, rfl⟩ := Prod.mk.inj (Except.ok.inj heq)
  exact ⟨⟨csvParsePing_ne_nil hbase, keys_csvLoadMpstat hcpu⟩,
    ⟨csvParsePing_ne_nil hxdp, keys_csvLoadMpstat hcpu'⟩⟩

/-- The script writes its table exactly where it can load its files and both columns have at
least two samples, and then no key or figure is missing and the figures of each column fit
together. -/
theorem results_table_consistent (files files' : Files)
    (table : List (String × Option ℚ × Option ℚ)) :
    resultsTable sqrt decimals digits float files files' = .ok table ↔
      ∃ base xdp, loadArtefacts decimals digits float files files' = .ok (base, xdp) ∧
        2 ≤ base.ipv4.length ∧ 2 ≤ xdp.ipv4.length ∧ Loaded base ∧ Loaded xdp ∧
        Consistent (figure sqrt base) ∧ Consistent (figure sqrt xdp) ∧
        table = metrics.map fun m ↦ (m.name, figure sqrt base m, figure sqrt xdp m) := by
  rw [resultsTable, bind_eq_ok_iff]
  constructor
  · rintro ⟨⟨base, xdp⟩, hload, hrows⟩
    obtain ⟨hb, hx⟩ := loaded_of_loadArtefacts hload
    obtain ⟨hbase, hxdp, htable⟩ := (rows_eq_ok_iff ⟨hb.flood, hx.flood⟩).mp hrows
    exact ⟨base, xdp, hload, hbase, hxdp, hb, hx, consistent_figure hbase hb.flood,
      consistent_figure hxdp hx.flood, htable⟩
  · rintro ⟨base, xdp, hload, hbase, hxdp, hb, hx, -, -, htable⟩
    exact ⟨(base, xdp), hload, (rows_eq_ok_iff ⟨hb.flood, hx.flood⟩).mpr ⟨hbase, hxdp, htable⟩⟩

end Table

end KernelBypass.Benchmarks.ResultsTable
