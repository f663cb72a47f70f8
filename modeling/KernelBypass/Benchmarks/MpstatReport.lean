import KernelBypass.Benchmarks.Python
import KernelBypass.Foundation.Collect
import Mathlib.Data.Vector.Basic

namespace KernelBypass.Benchmarks.MpstatReport

open Foundation TextScan Collect Python

inductive Column
  | time
  | cpu
  | usr
  | nice
  | sys
  | iowait
  | irq
  | soft
  | steal
  | guest
  | gnice
  | idle
  deriving DecidableEq

def cols : List Column :=
  [.time, .cpu, .usr, .nice, .sys, .iowait, .irq, .soft, .steal, .guest, .gnice, .idle]

def selected : List Column := [.usr, .sys, .irq, .soft, .idle]

section Load

variable (digits : DigitClass) (float : Text → Except PyError ℚ)

def isdigit (s : Text) : Bool := !s.isEmpty && s.all digits.isDigit

def allCpus : Text := ['a', 'l', 'l']

def isRow (parts : List Text) : Bool :=
  parts.length = 12 && (isdigit digits (parts.getD 1 []) || parts.getD 1 [] = allCpus)

/-- `row[k]` of the row `dict(zip(cols, parts))`. -/
def field (parts : List Text) (k : Column) : Text := ((cols.zip parts).lookup k).getD []

def addRow (sums : List (Column × ℚ)) (parts : List Text) : Except PyError (List (Column × ℚ)) :=
  sums.mapM fun s ↦ do
    let v ← float (field parts s.1)
    return (s.1, s.2 + v)

def csvLoadMpstat (f : TextFile) : Except PyError (List (Column × ℚ)) := do
  let keep := ((splitlines f.readText).map split).filter (isRow digits)
  if keep.isEmpty then
    throw (.valueError ("No mpstat rows in " ++ f.path))
  let sums ← keep.foldlM (addRow float) (selected.map (·, 0))
  return sums.map fun s ↦ (s.1, s.2 / keep.length)

def graphsLoadMpstat (f : TextFile) : Except PyError (List (Column × ℚ)) := do
  let rows := (f.lines.map split).filter (isRow digits)
  if rows.isEmpty then
    throw (.valueError ("No mpstat data parsed from " ++ f.path))
  selected.mapM fun k ↦ do
    let column ← rows.mapM fun parts ↦ float (field parts k)
    return (k, column.sum / column.length)

end Load

section Reports

structure Word where
  chars : Text
  isWord : IsWord isSpace chars

structure Value (float : Text → Except PyError ℚ) where
  word : Word
  value : ℚ
  exact : float word.chars = .ok value

structure CpuName where
  word : Word
  named : (∀ c ∈ word.chars, c.isDigit = true) ∨ word.chars = allCpus

variable (float : Text → Except PyError ℚ)

structure Row where
  cpu : CpuName
  usr : Value float
  nice : Value float
  sys : Value float
  iowait : Value float
  irq : Value float
  soft : Value float
  steal : Value float
  guest : Value float
  gnice : Value float
  idle : Value float

inductive Clock
  | hours24
  | hours12

structure Stamp where
  time24 : Word
  time12 : Word
  half : Word

structure Interval where
  previous : Stamp
  stamp : Stamp
  rows : List (Row float)

/-- What `mpstat -P ALL` reports: the line about the machine, the intervals and the averages. -/
structure Report where
  machine : List.Vector Word 7
  intervals : List (Interval float)
  averages : List (Row float)
  averaged : averages ≠ []

variable {float}

def Stamp.words (s : Stamp) : Clock → List Text
  | .hours24 => [s.time24.chars]
  | .hours12 => [s.time12.chars, s.half.chars]

def headings : List Text :=
  ["CPU", "%usr", "%nice", "%sys", "%iowait", "%irq", "%soft", "%steal", "%guest", "%gnice",
    "%idle"].map String.toList

def Row.words (r : Row float) : List Text :=
  [r.cpu.word.chars, r.usr.word.chars, r.nice.word.chars, r.sys.word.chars, r.iowait.word.chars,
    r.irq.word.chars, r.soft.word.chars, r.steal.word.chars, r.guest.word.chars,
    r.gnice.word.chars, r.idle.word.chars]

def average : Text := ['A', 'v', 'e', 'r', 'a', 'g', 'e', ':']

def Interval.lines (clock : Clock) (i : Interval float) : List (List Text) :=
  [] :: (i.previous.words clock ++ headings) ::
    i.rows.map fun r ↦ i.stamp.words clock ++ r.words

def Report.lines (clock : Clock) (r : Report float) : List (List Text) :=
  r.machine.toList.map (·.chars) :: (r.intervals.flatMap (·.lines clock) ++
    [] :: (average :: headings) :: r.averages.map fun row ↦ average :: row.words)

/-- A text has these words in its lines, with any blanks between them. -/
def Prints (content : Text) (lines : List (List Text)) : Prop :=
  ∃ ls : List Text, content = ls.flatMap (· ++ ['\n']) ∧
    (∀ l ∈ ls, ∀ c ∈ l, isLineBreak c = false) ∧ ls.map split = lines

def Row.value (r : Row float) : Column → ℚ
  | .time => 0
  | .cpu => 0
  | .usr => r.usr.value
  | .nice => r.nice.value
  | .sys => r.sys.value
  | .iowait => r.iowait.value
  | .irq => r.irq.value
  | .soft => r.soft.value
  | .steal => r.steal.value
  | .guest => r.guest.value
  | .gnice => r.gnice.value
  | .idle => r.idle.value

def Report.intervalRows (r : Report float) : List (Row float) := r.intervals.flatMap (·.rows)

def total (k : Column) (rows : List (Row float)) : ℚ := (rows.map (·.value k)).sum

def mean (k : Column) (rows : List (Row float)) : ℚ := total k rows / rows.length

/-- The rows that reach the average, each with what stands in its first column. -/
def Report.kept (r : Report float) : Clock → List (Text × Row float)
  | .hours24 => (r.intervals.flatMap fun i ↦ i.rows.map (i.stamp.time24.chars, ·)) ++
      r.averages.map (average, ·)
  | .hours12 => r.averages.map (average, ·)

def parts (row : Text × Row float) : List Text := row.1 :: row.2.words

end Reports

section Lines

variable {f : TextFile} {lines : List (List Text)}

theorem lines_of_prints (h : Prints f.content lines) :
    (splitlines f.readText).map split = lines ∧ f.lines.map split = lines := by
  obtain ⟨ls, hcontent, hfree, rfl⟩ := h
  have hreturn : '\r' ∉ f.content := by
    rw [hcontent]
    intro hmem
    obtain ⟨l, hl, hmem⟩ := List.mem_flatMap.mp hmem
    rcases List.mem_append.mp hmem with hmem | hmem
    · have hbreak := hfree l hl '\r' hmem
      cases hbreak
    · simp at hmem
  have hnewline : ∀ l ∈ ls, ∀ c ∈ l, decide (c = '\n') = false := by
    intro l hl c hc
    refine decide_eq_false fun hcn ↦ ?_
    have hbreak := hfree l hl c hc
    rw [hcn] at hbreak
    cases hbreak
  constructor
  · rw [TextFile.readText, universalNewlines_eq_self hreturn, splitlines_eq_pieces hreturn,
      hcontent, pieces_flatMap rfl hfree]
  · rw [TextFile.lines, universalNewlines_eq_self hreturn, hcontent,
      chunks_flatMap (by decide) hnewline, List.map_map]
    refine List.map_congr_left fun l _ ↦ ?_
    have hend : isSpace '\n' = true := rfl
    have hwords := words_append_blank hend l []
    rwa [show words isSpace ([] : Text) = [] from rfl, List.append_nil] at hwords

end Lines

section Texts

variable {float : Text → Except PyError ℚ}

def render (lines : List (List Text)) : Text :=
  (lines.map fun ws ↦ ws.flatMap (· ++ [' '])).flatMap (· ++ ['\n'])

theorem prints_render {lines : List (List Text)} (h : ∀ ws ∈ lines, ∀ w ∈ ws, IsWord isSpace w) :
    Prints (render lines) lines := by
  refine ⟨_, rfl, ?_, ?_⟩
  · intro l hl c hc
    obtain ⟨ws, hws, rfl⟩ := List.mem_map.mp hl
    obtain ⟨w, hw, hc⟩ := List.mem_flatMap.mp hc
    rcases List.mem_append.mp hc with hc | hc
    · have hsolid := (h ws hws w hw).solid c hc
      rw [← Bool.not_eq_true]
      intro hbreak
      rw [isSpace_of_isLineBreak hbreak] at hsolid
      cases hsolid
    · rw [List.mem_singleton.mp hc]
      rfl
  · rw [List.map_map]
    conv_rhs => rw [← List.map_id lines]
    exact List.map_congr_left fun ws hws ↦ words_flatMap rfl (h ws hws)

theorem isWord_of_all {w : Text} (h : (!w.isEmpty && w.all (!isSpace ·)) = true) :
    IsWord isSpace w := by
  rw [Bool.and_eq_true, Bool.not_eq_true', List.isEmpty_eq_false_iff, List.all_eq_true] at h
  exact ⟨h.1, fun c hc ↦ (Bool.not_eq_true' _).mp (h.2 c hc)⟩

theorem isWord_headings : ∀ w ∈ average :: headings, IsWord isSpace w := by
  have hall : (average :: headings).all (fun w ↦ !w.isEmpty && w.all (!isSpace ·)) = true := rfl
  exact fun w hw ↦ isWord_of_all (List.all_eq_true.mp hall w hw)

theorem isWord_stamp (s : Stamp) (clock : Clock) : ∀ w ∈ s.words clock, IsWord isSpace w := by
  cases clock with
  | hours24 => simpa [Stamp.words] using s.time24.isWord
  | hours12 => simpa [Stamp.words] using ⟨s.time12.isWord, s.half.isWord⟩

theorem isWord_row (r : Row float) : ∀ w ∈ r.words, IsWord isSpace w := by
  have hall : ∀ w ∈ [r.cpu.word, r.usr.word, r.nice.word, r.sys.word, r.iowait.word, r.irq.word,
      r.soft.word, r.steal.word, r.guest.word, r.gnice.word, r.idle.word].map Word.chars,
      IsWord isSpace w := by
    intro w hw
    obtain ⟨w, _, rfl⟩ := List.mem_map.mp hw
    exact w.isWord
  exact hall

theorem isWord_interval (i : Interval float) (clock : Clock) :
    ∀ ws ∈ i.lines clock, ∀ w ∈ ws, IsWord isSpace w := by
  have hhead := (List.forall_mem_cons.mp isWord_headings).2
  refine List.forall_mem_cons.mpr ⟨List.forall_mem_nil _, List.forall_mem_cons.mpr ⟨?_, ?_⟩⟩
  · exact List.forall_mem_append.mpr ⟨isWord_stamp i.previous clock, hhead⟩
  · intro ws hws
    obtain ⟨r, _, rfl⟩ := List.mem_map.mp hws
    exact List.forall_mem_append.mpr ⟨isWord_stamp i.stamp clock, isWord_row r⟩

/-- Every report is printed by some text, with either clock. -/
theorem prints_report (r : Report float) (clock : Clock) :
    Prints (render (r.lines clock)) (r.lines clock) := by
  have haverage := (List.forall_mem_cons.mp isWord_headings).1
  apply prints_render
  refine List.forall_mem_cons.mpr ⟨?_, List.forall_mem_append.mpr ⟨?_, ?_⟩⟩
  · intro w hw
    obtain ⟨w, _, rfl⟩ := List.mem_map.mp hw
    exact w.isWord
  · intro ws hws
    obtain ⟨i, _, hws⟩ := List.mem_flatMap.mp hws
    exact isWord_interval i clock ws hws
  · refine List.forall_mem_cons.mpr ⟨List.forall_mem_nil _, List.forall_mem_cons.mpr
      ⟨isWord_headings, ?_⟩⟩
    intro ws hws
    obtain ⟨row, _, rfl⟩ := List.mem_map.mp hws
    exact List.forall_mem_cons.mpr ⟨haverage, isWord_row row⟩

end Texts

section Rows

variable {digits : DigitClass} {float : Text → Except PyError ℚ}

theorem isRow_words (t : Text) (r : Row float) : isRow digits (t :: r.words) = true := by
  have hne := r.cpu.word.isWord.ne_nil
  change (decide (12 = 12) && (isdigit digits r.cpu.word.chars ||
    decide (r.cpu.word.chars = allCpus))) = true
  rcases r.cpu.named with hdigits | hall
  · have hclass : ∀ c ∈ r.cpu.word.chars, digits.isDigit c = true :=
      fun c hc ↦ digits.ascii c (hdigits c hc)
    simpa [isdigit, hne] using Or.inl hclass
  · simp [hall]

theorem isRow_of_length {parts : List Text} (h : parts.length ≠ 12) :
    isRow digits parts = false := by
  simp [isRow, h]

theorem isRow_nil : isRow digits [] = false := isRow_of_length (by decide)

theorem isRow_headings (t : Text) : isRow digits (t :: headings) = false := by
  have hletter : digits.isDigit 'C' = false := digits.noLetter 'C' rfl
  change (decide (12 = 12) && (isdigit digits ['C', 'P', 'U'] ||
    decide (['C', 'P', 'U'] = allCpus))) = false
  simp [isdigit, hletter, allCpus]

theorem filter_rows {t : Text} (rows : List (Row float)) :
    (rows.map fun r ↦ t :: r.words).filter (isRow digits) = rows.map fun r ↦ t :: r.words := by
  rw [List.filter_eq_self]
  intro parts hparts
  obtain ⟨r, _, rfl⟩ := List.mem_map.mp hparts
  exact isRow_words t r

/-- With two words for the time there is one field too many in every row. -/
theorem filter_interval (clock : Clock) (i : Interval float) :
    (i.lines clock).filter (isRow digits) = match clock with
      | .hours24 => i.rows.map fun r ↦ i.stamp.time24.chars :: r.words
      | .hours12 => [] := by
  cases clock with
  | hours24 =>
    have hhead : isRow digits (i.previous.time24.chars :: headings) = false := isRow_headings _
    simp only [Interval.lines, Stamp.words, List.singleton_append, List.filter_cons, isRow_nil,
      hhead,
      filter_rows]
    rfl
  | hours12 =>
    rw [List.filter_eq_nil_iff]
    intro parts hparts
    have hlen : parts.length ≠ 12 := by
      rcases List.mem_cons.mp hparts with rfl | hparts
      · decide
      rcases List.mem_cons.mp hparts with rfl | hparts
      · exact (by decide : 13 ≠ 12)
      · obtain ⟨r, _, rfl⟩ := List.mem_map.mp hparts
        exact (by decide : 13 ≠ 12)
    rw [isRow_of_length hlen]
    decide

theorem filter_lines (clock : Clock) (r : Report float) :
    (r.lines clock).filter (isRow digits) = (r.kept clock).map parts := by
  have hmachine : isRow digits (r.machine.toList.map (·.chars)) = false := by
    apply isRow_of_length
    rw [List.length_map, r.machine.toList_length]
    decide
  have hhead : isRow digits (average :: headings) = false := isRow_headings average
  simp only [Report.lines, List.filter_cons, hmachine, List.filter_append, List.filter_flatMap,
    filter_interval, isRow_nil, hhead, filter_rows]
  cases clock with
  | hours24 => simp [Report.kept, List.map_flatMap, Function.comp_def, parts]
  | hours12 => simp [Report.kept, Function.comp_def, parts]

theorem float_field (t : Text) (r : Row float) {k : Column} (hk : k ∈ selected) :
    float (field (t :: r.words) k) = .ok (r.value k) := by
  simp only [selected, List.mem_cons, List.not_mem_nil, or_false] at hk
  rcases hk with rfl | rfl | rfl | rfl | rfl
  · exact r.usr.exact
  · exact r.sys.exact
  · exact r.irq.exact
  · exact r.soft.exact
  · exact r.idle.exact

end Rows

section Averages

variable {digits : DigitClass} {float : Text → Except PyError ℚ} {f : TextFile} {r : Report float}
  {clock : Clock}

theorem addRow_run (acc : Column → ℚ) (row : Text × Row float) :
    addRow float (selected.map fun k ↦ (k, acc k)) (parts row) =
      .ok (selected.map fun k ↦ (k, acc k + row.2.value k)) := by
  have hrow : ∀ s ∈ selected.map fun k ↦ (k, acc k), (do
      let v ← float (field (parts row) s.1)
      return (s.1, s.2 + v) : Except PyError (Column × ℚ)) = .ok (s.1, s.2 + row.2.value s.1) := by
    intro s hs
    obtain ⟨k, hk, rfl⟩ := List.mem_map.mp hs
    rw [parts, float_field row.1 row.2 hk]
    rfl
  rw [addRow, mapM_eq_ok hrow, List.map_map]
  rfl

theorem foldlM_addRow (acc : Column → ℚ) (rows : List (Text × Row float)) :
    (rows.map parts).foldlM (addRow float) (selected.map fun k ↦ (k, acc k)) =
      .ok (selected.map fun k ↦ (k, acc k + total k (rows.map (·.2)))) := by
  induction rows generalizing acc with
  | nil => simp [total, pure, Except.pure]
  | cons row rows ih =>
    rw [List.map_cons, List.foldlM_cons, addRow_run]
    change (rows.map parts).foldlM (addRow float) _ = _
    rw [ih]
    simp [total, add_assoc]

theorem rows_of_prints (h : Prints f.content (r.lines clock)) :
    ((splitlines f.readText).map split).filter (isRow digits) = (r.kept clock).map parts ∧
      (f.lines.map split).filter (isRow digits) = (r.kept clock).map parts := by
  rw [(lines_of_prints h).1, (lines_of_prints h).2, filter_lines]
  exact ⟨rfl, rfl⟩

theorem isEmpty_kept (r : Report float) (clock : Clock) :
    ((r.kept clock).map parts).isEmpty = false := by
  have hne := r.averaged
  cases clock with
  | hours24 => simp [Report.kept, hne]
  | hours12 => simp [Report.kept, hne]

def Report.averagesOf (r : Report float) (clock : Clock) : List (Column × ℚ) :=
  selected.map fun k ↦ (k, mean k ((r.kept clock).map (·.2)))

theorem csvLoadMpstat_run (h : Prints f.content (r.lines clock)) :
    csvLoadMpstat digits float f = .ok (r.averagesOf clock) := by
  have hsum := foldlM_addRow (fun _ ↦ 0) (r.kept clock)
  simp only [csvLoadMpstat, (rows_of_prints h).1, isEmpty_kept r clock, hsum]
  change Except.ok _ = Except.ok _
  simp [Report.averagesOf, mean, Function.comp_def]

theorem graphsLoadMpstat_run (h : Prints f.content (r.lines clock)) :
    graphsLoadMpstat digits float f = .ok (r.averagesOf clock) := by
  have hcolumn : ∀ k ∈ selected, (do
      let column ← ((r.kept clock).map parts).mapM fun parts ↦ float (field parts k)
      return (k, column.sum / column.length) : Except PyError (Column × ℚ)) =
      .ok (k, mean k ((r.kept clock).map (·.2))) := by
    intro k hk
    rw [List.mapM_map, mapM_eq_ok fun row _ ↦ float_field row.1 row.2 hk]
    simp [mean, total, Function.comp_def, bind, Except.bind, pure, Except.pure]
  simp only [graphsLoadMpstat, (rows_of_prints h).2, isEmpty_kept r clock]
  exact mapM_eq_ok hcolumn

end Averages

end KernelBypass.Benchmarks.MpstatReport
