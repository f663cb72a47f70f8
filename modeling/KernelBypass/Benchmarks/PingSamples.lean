import KernelBypass.Benchmarks.Python
import KernelBypass.Foundation.Collect

namespace KernelBypass.Benchmarks.PingSamples

open Foundation TextScan Collect Python

def timeEq : Text := ['t', 'i', 'm', 'e', '=']

/-- A sample as it stands in the text, and the number that it is read as. -/
structure Sample (β : Type) where
  text : Text
  value : β

structure Series (β : Type) where
  name : String
  values : List (Sample β)

variable {β : Type} (digits : DigitClass) (float : Text → Except PyError β)

def isNumeral (c : Char) : Bool := digits.isDigit c || c = '.'

/-- The group of `time=([\d.]+)` at the start of a text. -/
def matchTime (t : Text) : Option Text :=
  (following timeEq t).bind fun rest ↦
    let group := rest.takeWhile (isNumeral digits)
    if group.isEmpty then none else some group

def search (line : Text) : Option Text := leftmost (matchTime digits) line

def convert (s : Text) : Except PyError (Option (Sample β)) := do
  let value ← float s
  return some ⟨s, value⟩

def searchLine (line : Text) : Except PyError (Option (Sample β)) :=
  match search digits line with
  | none => return none
  | some group => convert float group

/-- The sample of a line by `line.split('time=')[1].split()[0]`. -/
def splitLine (line : Text) : Except PyError (Option (Sample β)) :=
  match leftmost (following timeEq) line with
  | none => return none
  | some rest => do
    let t ← getItem (split (upTo timeEq rest)) 0
    convert float t

def csvParsePing (f : TextFile) : Except PyError (List (Sample β)) := do
  let rtt ← collect (searchLine digits float) (splitlines f.readText)
  if rtt.isEmpty then
    throw (.valueError ("No RTT samples in " ++ f.path))
  return rtt

def graphsParsePing (f : TextFile) : Except PyError (Series β) := do
  let times ← collect (splitLine float) (splitlines f.readText)
  return ⟨f.stem, times⟩

def loadPingTimes (f : TextFile) : Except PyError (List (Sample β)) := do
  let times ← collect (searchLine digits float) f.lines
  if times.isEmpty then
    throw (.valueError ("No ping RTTs parsed from " ++ f.path))
  return times

section Shapes

def Marked (line : Text) : Prop := timeEq <:+: line

instance : DecidablePred Marked := fun line ↦ inferInstanceAs (Decidable (_ <:+: line))

/-- A number directly behind `time=`, as long as it goes on. -/
def NumberAt (t group : Text) : Prop :=
  ∃ back, t = timeEq ++ (group ++ back) ∧ group ≠ [] ∧ (∀ c ∈ group, isNumeral digits c = true) ∧
    ∀ c ∈ back.head?, isNumeral digits c = false

def FirstNumber (line group : Text) : Prop := IsLeftmost (NumberAt digits) line group

def WordBehind (rest w : Text) : Prop :=
  ∃ blank back, rest = blank ++ (w ++ back) ∧ (∀ c ∈ blank, isSpace c = true) ∧
    IsWord isSpace w ∧ ((∀ c ∈ back.head?, isSpace c = true) ∨ timeEq <+: back) ∧
    ∀ u v, w = u ++ v → v ≠ [] → ¬ timeEq <+: v ++ back

/-- The word behind the first `time=` of a line, in front of the next one. -/
def FirstWordBehind (line w : Text) : Prop :=
  ∃ rest, IsLeftmost (fun t rest ↦ t = timeEq ++ rest) line rest ∧ WordBehind rest w

def Accepts (s : Text) : Prop := ∃ value, float s = .ok value

end Shapes

section Lines

variable {digits float} {line : Text}

theorem matchTime_eq_some_iff {t group : Text} :
    matchTime digits t = some group ↔ NumberAt digits t group := by
  constructor
  · intro h
    obtain ⟨rest, hrest, hgroup⟩ := Option.bind_eq_some_iff.mp h
    obtain ⟨w, back, rfl, hw, hback⟩ := exists_solid (fun c ↦ !isNumeral digits c) rest
    have htake : (w ++ back).takeWhile (isNumeral digits) = w :=
      takeWhile_eq_of_head? (by simpa using hw) (by simpa using hback)
    simp only [htake, Option.ite_none_left_eq_some, Option.some_inj] at hgroup
    obtain ⟨hne, rfl⟩ := hgroup
    exact ⟨back, following_eq_some_iff.mp hrest, by simpa using hne, by simpa using hw,
      by simpa using hback⟩
  · rintro ⟨back, rfl, hne, hgroup, hback⟩
    have htake := takeWhile_eq_of_head? hgroup hback
    have hne' : ¬ group.isEmpty = true := by simpa using hne
    simp only [matchTime, following_eq_some_iff.mpr rfl, Option.bind_some, htake, if_neg hne']

theorem search_eq_some_iff {group : Text} :
    search digits line = some group ↔ FirstNumber digits line group :=
  leftmost_eq_some_iff fun _ _ ↦ matchTime_eq_some_iff

theorem search_eq_none_iff :
    search digits line = none ↔ ∀ group, ¬ FirstNumber digits line group := by
  rw [Option.eq_none_iff_forall_ne_some]
  exact forall_congr' fun group ↦ not_congr search_eq_some_iff

theorem leftmost_timeEq_eq_none_iff : leftmost (following timeEq) line = none ↔ ¬ Marked line := by
  rw [leftmost_eq_none_iff]
  constructor
  · rintro h ⟨front, back, hline⟩
    have hnone := h front (timeEq ++ back) (by rw [← hline, List.append_assoc])
    rw [following_eq_some_iff.mpr rfl] at hnone
    cases hnone
  · intro h front rest hline
    cases hrest : following timeEq rest with
    | none => rfl
    | some back =>
      refine absurd ⟨front, back, ?_⟩ h
      rw [hline, following_eq_some_iff.mp hrest, List.append_assoc]

theorem following_timeEq_eq_none_iff {t : Text} : following timeEq t = none ↔ ¬ timeEq <+: t := by
  rw [Option.eq_none_iff_forall_ne_some]
  constructor
  · rintro h ⟨rest, rfl⟩
    exact h rest (following_eq_some_iff.mpr rfl)
  · intro h rest hrest
    exact h ⟨rest, (following_eq_some_iff.mp hrest).symm⟩

theorem following_timeEq_of_isSpace {c : Char} (hc : isSpace c = true) (t : Text) :
    following timeEq (c :: t) = none := by
  have hne : 't' ≠ c := by
    rintro rfl
    cases hc
  rw [timeEq, following, if_neg hne]

theorem head?_split_upTo_iff {rest w : Text} :
    (split (upTo timeEq rest)).head? = some w ↔ WordBehind rest w := by
  rw [split, head?_words_iff]
  constructor
  · rintro ⟨blank, tail, hshown, hblank, hw, htail⟩
    obtain ⟨back, hrest, hend, hfree⟩ := exists_upTo timeEq rest
    rw [hshown] at hrest hfree
    refine ⟨blank, tail ++ back, by rw [hrest]; simp only [List.append_assoc], hblank, hw, ?_, ?_⟩
    · cases tail with
      | nil =>
        rcases hend with rfl | hsome
        · exact Or.inl (by simp)
        · right
          by_contra hnot
          rw [List.nil_append, ← following_timeEq_eq_none_iff] at hnot
          simp [hnot] at hsome
      | cons c tail => exact Or.inl htail
    · intro u v huv hv
      have hnone := hfree (blank ++ u) (v ++ tail) (by rw [huv]; simp only [List.append_assoc])
        (by simp [hv])
      rwa [following_timeEq_eq_none_iff, List.append_assoc] at hnone
  · rintro ⟨blank, back, rfl, hblank, hw, hend, hfree⟩
    have hshown : upTo timeEq (blank ++ w ++ back) = blank ++ w ++ upTo timeEq back := by
      apply upTo_append
      intro u v huv hv
      rcases List.append_eq_append_iff.mp huv with ⟨e, _, hwe⟩ | ⟨e, hblank', rfl⟩
      · exact following_timeEq_eq_none_iff.mpr (hfree e v hwe hv)
      · cases e with
        | nil => exact following_timeEq_eq_none_iff.mpr (hfree [] w rfl hw.ne_nil)
        | cons c e =>
          have hc : isSpace c = true := hblank c (by rw [hblank']; simp)
          exact following_timeEq_of_isSpace hc _
    rw [← List.append_assoc, hshown]
    refine ⟨blank, upTo timeEq back, by rw [List.append_assoc], hblank, hw, ?_⟩
    rcases hend with hhead | ⟨rest, rfl⟩
    · cases back with
      | nil => simp [upTo]
      | cons c back =>
        have hc : isSpace c = true := hhead c rfl
        simpa [upTo, following_timeEq_of_isSpace hc] using hc
    · rw [upTo_of_following (following_eq_some_iff.mpr rfl)]
      simp

theorem convert_eq_ok_iff {s : Text} {o : Option (Sample β)} :
    convert float s = .ok o ↔ ∃ value, float s = .ok value ∧ some ⟨s, value⟩ = o := by
  rw [convert, bind_eq_ok_iff]
  simp [pure, Except.pure]

theorem searchLine_eq_none_iff :
    searchLine digits float line = .ok none ↔ ∀ s, ¬ FirstNumber digits line s := by
  rw [← search_eq_none_iff, searchLine]
  cases search digits line with
  | none => simp [pure, Except.pure]
  | some group => simp [convert_eq_ok_iff]

theorem searchLine_eq_some_iff {a : Sample β} : searchLine digits float line = .ok (some a) ↔
    FirstNumber digits line a.text ∧ float a.text = .ok a.value := by
  rw [← search_eq_some_iff, searchLine]
  cases search digits line with
  | none => simp [pure, Except.pure]
  | some group =>
    rw [convert_eq_ok_iff, Option.some_inj]
    constructor
    · rintro ⟨value, hvalue, ⟨⟩⟩
      exact ⟨rfl, hvalue⟩
    · rintro ⟨rfl, hvalue⟩
      exact ⟨a.value, hvalue, rfl⟩

theorem searchLine_ok_iff : (∃ o, searchLine digits float line = .ok o) ↔
    ∀ s, FirstNumber digits line s → Accepts float s := by
  simp only [← search_eq_some_iff, searchLine]
  cases search digits line with
  | none => simp [pure, Except.pure]
  | some group => simp [convert_eq_ok_iff, Accepts]

theorem splitLine_eq_none_iff : splitLine float line = .ok none ↔ ¬ Marked line := by
  rw [← leftmost_timeEq_eq_none_iff, splitLine]
  cases leftmost (following timeEq) line with
  | none => simp [pure, Except.pure]
  | some rest => simp [bind_eq_ok_iff, convert_eq_ok_iff]

theorem getItem_zero_eq_ok_iff {l : List Text} {w : Text} :
    getItem l 0 = .ok w ↔ l.head? = some w := by
  cases l <;> simp [getItem]

theorem firstWordBehind_iff {w : Text} : FirstWordBehind line w ↔
    ∃ rest, leftmost (following timeEq) line = some rest ∧
      getItem (split (upTo timeEq rest)) 0 = .ok w := by
  simp only [FirstWordBehind, leftmost_eq_some_iff fun _ _ ↦ following_eq_some_iff,
    getItem_zero_eq_ok_iff, head?_split_upTo_iff]

theorem splitLine_eq_some_iff {a : Sample β} : splitLine float line = .ok (some a) ↔
    FirstWordBehind line a.text ∧ float a.text = .ok a.value := by
  rw [firstWordBehind_iff, splitLine]
  cases leftmost (following timeEq) line with
  | none => simp [pure, Except.pure]
  | some rest =>
    simp only [bind_eq_ok_iff, convert_eq_ok_iff, Option.some_inj]
    constructor
    · rintro ⟨w, hw, value, hvalue, rfl⟩
      exact ⟨⟨rest, rfl, hw⟩, hvalue⟩
    · rintro ⟨⟨_, rfl, hw⟩, hvalue⟩
      exact ⟨a.text, hw, a.value, hvalue, rfl⟩

theorem splitLine_ok_iff : (∃ o, splitLine float line = .ok o) ↔
    (Marked line → ∃ w, FirstWordBehind line w ∧ Accepts float w) := by
  constructor
  · rintro ⟨o, ho⟩ hmarked
    cases o with
    | none => exact absurd hmarked (splitLine_eq_none_iff.mp ho)
    | some a =>
      obtain ⟨hword, hvalue⟩ := splitLine_eq_some_iff.mp ho
      exact ⟨a.text, hword, a.value, hvalue⟩
  · intro h
    by_cases hmarked : Marked line
    · obtain ⟨w, hword, value, hvalue⟩ := h hmarked
      exact ⟨some ⟨w, value⟩, splitLine_eq_some_iff.mpr ⟨hword, hvalue⟩⟩
    · exact ⟨none, splitLine_eq_none_iff.mpr hmarked⟩

/-- A number behind `time=` is in a line that has `time=`. -/
theorem FirstNumber.marked {s : Text} (h : FirstNumber digits line s) : Marked line := by
  obtain ⟨front, rest, rfl, ⟨back, rfl, _⟩, _⟩ := h
  exact ⟨front, s ++ back, by simp only [List.append_assoc]⟩

end Lines

end KernelBypass.Benchmarks.PingSamples
