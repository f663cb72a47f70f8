import KernelBypass.Foundation.Access
import KernelBypass.Common.CommonParams

namespace KernelBypass.Common.OptionTable

open Foundation Buffer Access CommonParams

/-- `struct option` of the C library; null pointers are `none`, others to an `int` are
addresses. -/
structure StructOption where
  name : Option CString
  hasArg : Int32
  flag : Option ℕ
  val : Int32

structure OptionWrapper where
  option : StructOption
  help : Option CString
  metavar : Option CString
  required : Bool

/-- An answer of `malloc` to each number of entries: no memory, or an array with any
content. -/
abbrev Malloc := (num : ℕ) → Option (List.Vector StructOption num)

def countOptions (wrapper : List OptionWrapper) : Except Fault ℕ :=
  List.length <$> scan (·.option.name.isNone) 0 wrapper

/-- The last `n` rounds of the loop that copies, from index `i` on. -/
def copyOptions (wrapper : List OptionWrapper) (i : ℕ) : ℕ → Program StructOption Unit
  | 0 => pure ()
  | n + 1 =>
    match wrapper[i]? with
    | none => fault i 1
    | some w => do
      store i [w.option]
      copyOptions wrapper (i + 1) n

def optionWrappersToOptions (malloc : Malloc) (wrapper : List OptionWrapper) :
    Except Fault (ℤ × Option (List StructOption)) := do
  let num ← countOptions wrapper
  match malloc num with
  | none => return (-1, none)
  | some newOptions =>
    let copied ← copyOptions wrapper 0 num newOptions.toList
    return (0, some copied.2)

/-- The entries that `getopt_long` goes through: all from index `i` on, up to one with a
null name. -/
def readOptions (i : ℕ) (options : List StructOption) : Except Fault (List StructOption) :=
  scan (·.name.isNone) i options

structure WrapperTable where
  entries : List OptionWrapper
  named : ∀ w ∈ entries, w.option.name.isSome
  terminator : OptionWrapper
  ended : terminator.option.name = none

def WrapperTable.array (t : WrapperTable) : List OptionWrapper := t.entries ++ [t.terminator]

def WrapperTable.options (t : WrapperTable) : List StructOption := t.entries.map (·.option)

/-- What has been copied stands in front of the part of the block that is still to be
written. -/
theorem copyOptions_run (before : List OptionWrapper) {ws : List OptionWrapper}
    (rest : List OptionWrapper) (copied : List StructOption) {block : List StructOption}
    (hbefore : before.length = copied.length) (hblock : block.length = ws.length) :
    copyOptions (before ++ ws ++ rest) copied.length ws.length (copied ++ block) =
      .ok ((), copied ++ ws.map (·.option)) := by
  induction ws generalizing before copied block with
  | nil =>
    obtain rfl := List.length_eq_zero_iff.mp hblock
    rfl
  | cons w ws ih =>
    obtain ⟨b, block, rfl⟩ := List.exists_cons_of_length_eq_add_one hblock
    have hget : (before ++ (w :: ws) ++ rest)[copied.length]? = some w := by
      simp [← hbefore]
    have hstore : overwrite (copied ++ b :: block) copied.length [w.option] =
        copied ++ [w.option] ++ block := by
      simp [overwrite]
    have hrest := ih (before ++ [w]) (copied ++ [w.option]) (by simp [hbefore])
      (Nat.succ.inj hblock)
    rw [List.length_cons, copyOptions, hget]
    dsimp only
    rw [bind_run (store_run (by simp)), hstore]
    simpa using hrest

theorem optionWrappersToOptions_run (malloc : Malloc) (t : WrapperTable) :
    optionWrappersToOptions malloc t.array = .ok
      (match malloc t.entries.length with
        | none => (-1, none)
        | some _ => (0, some t.options)) := by
  have hcount : countOptions t.array = .ok t.entries.length := by
    have hnamed : ∀ w ∈ t.entries, w.option.name.isNone = false := by simpa using t.named
    rw [countOptions, WrapperTable.array, scan_append hnamed, scan, t.ended]
    simp
  simp only [optionWrappersToOptions, hcount, bind, Except.bind]
  cases malloc t.entries.length with
  | none => rfl
  | some block =>
    have hcopy : copyOptions t.array 0 t.entries.length block.toList = .ok ((), t.options) :=
      copyOptions_run [] [t.terminator] [] rfl block.toList_length
    simp only [hcopy]
    rfl

theorem WrapperTable.options_named (t : WrapperTable) : ∀ o ∈ t.options, o.name.isNone = false := by
  intro o ho
  obtain ⟨w, hw, rfl⟩ := List.mem_map.mp ho
  simpa using t.named w hw

theorem WrapperTable.length_options (t : WrapperTable) : t.options.length = t.entries.length :=
  List.length_map _

/-- The end of the table is not copied, so that no reader stops inside the new array: it
goes on with whatever is behind. -/
theorem option_table_without_end (malloc : Malloc) (t : WrapperTable)
    (newOptions : List StructOption)
    (h : optionWrappersToOptions malloc t.array = .ok (0, some newOptions)) :
    newOptions.length = t.entries.length ∧ ¬ readOptions 0 newOptions = .ok t.options ∧
      readOptions 0 newOptions = .error (.outOfBounds t.entries.length 1) ∧
      ∀ behind, readOptions 0 (newOptions ++ behind) =
        (t.options ++ ·) <$> readOptions t.entries.length behind := by
  have hread (behind : List StructOption) : readOptions 0 (t.options ++ behind) =
      (t.options ++ ·) <$> readOptions t.entries.length behind := by
    rw [readOptions, scan_append t.options_named, t.length_options, Nat.zero_add, readOptions]
  have hfault : readOptions 0 t.options = .error (.outOfBounds t.entries.length 1) := by
    have hnil := hread []
    rwa [List.append_nil] at hnil
  obtain rfl : t.options = newOptions := by
    rw [optionWrappersToOptions_run] at h
    cases hmalloc : malloc t.entries.length with
    | none => simp [hmalloc] at h
    | some block => simpa [hmalloc] using h
  refine ⟨t.length_options, ?_, hfault, hread⟩
  rw [hfault]
  exact fun hok ↦ by cases hok

def helpOption : StructOption := ⟨some ⟨[104, 101, 108, 112], by decide⟩, 0, none, 104⟩

def strayOption : StructOption := ⟨some ⟨[120], by decide⟩, 0, none, 120⟩

def zeroOption : StructOption := ⟨none, 0, none, 0⟩

def helpTable : WrapperTable where
  entries := [⟨helpOption, none, none, false⟩]
  named := by simp [helpOption]
  terminator := ⟨zeroOption, none, none, false⟩
  ended := rfl

def zeroMalloc : Malloc := fun num ↦ some (List.Vector.replicate num zeroOption)

theorem option_table_without_end_help :
    ∃ newOptions, optionWrappersToOptions zeroMalloc helpTable.array = .ok (0, some newOptions) ∧
      readOptions 0 newOptions = .error (.outOfBounds 1 1) :=
  ⟨_, rfl, (option_table_without_end zeroMalloc helpTable _ rfl).2.2.1⟩

/-- Even with zeroed memory the scan leaves the array, and takes what lies behind it for an
option. -/
theorem help_table_matches_stray_option :
    optionWrappersToOptions zeroMalloc helpTable.array = .ok (0, some [helpOption]) ∧
      readOptions 0 [helpOption] = .error (.outOfBounds 1 1) ∧
      readOptions 0 ([helpOption] ++ [strayOption, zeroOption]) =
        .ok [helpOption, strayOption] :=
  ⟨rfl, rfl, rfl⟩

end KernelBypass.Common.OptionTable
