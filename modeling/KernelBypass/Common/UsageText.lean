import KernelBypass.Common.MapFiles
import KernelBypass.Common.OptionTable

namespace KernelBypass.Common.UsageText

open Foundation Buffer Access CommonParams OptionTable MapFiles

abbrev bufsize : ℕ := 30

def toSize (n : ℤ) : ℕ := (n % 2 ^ 64).toNat

/-- `snprintf` to `&buf[pos]` with a size: the text is cut off so that it fits with the byte
that ends it. The value is the length of the whole text, or negative where an `int` cannot
hold it. -/
def snprintf (pos : ℤ) (size : ℕ) (s : List UInt8) : Program UInt8 ℤ := do
  if size ≠ 0 then
    store (toSize pos) (s.take (size - 1) ++ [0])
  return if s.length ≤ intMax then s.length else -1

def readString : Program UInt8 (List UInt8) := fun buf ↦
  if 0 ∈ buf then .ok (buf.takeWhile (· ≠ 0), buf) else .error (.outOfBounds buf.length 1)

/-- `"%s"`, where the C library prints a null pointer in its own way. -/
def formatString (s : Option CString) : List UInt8 :=
  match s with
  | some s => s.bytes
  | none => text "(null)"

def padded (s : List UInt8) : List UInt8 := s ++ List.replicate (22 - s.length) 32

/-- One round of the loop: where the second `snprintf` starts and the size it is given, the
array when it is printed, and what goes to `stdout`. -/
structure Line where
  second : Option (ℤ × ℕ)
  buf : List UInt8
  stdout : List UInt8

/-- `" -%c,"` for a letter, four blanks for another value. -/
def shortOption (val : Int32) : List UInt8 :=
  if val > 64 then text " -" ++ [val.toUInt32.toUInt8] ++ text "," else text "    "

def longOption (name : CString) : List UInt8 := 32 :: 45 :: 45 :: name.bytes

def argument (metavar : CString) : List UInt8 := 32 :: metavar.bytes

/-- The second `snprintf`, which is left out for a null pointer. -/
def printMetavar (pos : ℤ) : Option CString → Program UInt8 (Option (ℤ × ℕ))
  | none => return none
  | some metavar => do
    let size := toSize (bufsize - pos)
    let _ ← snprintf pos size (argument metavar)
    return some (pos, size)

def printOption (w : OptionWrapper) (name : CString) : Program UInt8 Line := do
  let pos ← snprintf 0 bufsize (longOption name)
  let second ← printMetavar pos w.metavar
  let buf ← get
  let shown ← readString
  return ⟨second, buf, shortOption w.option.val ++ padded shown ++ text "  " ++
    formatString w.help ++ text "\n"⟩

def printOptions (required : Bool) (i : ℕ) : List OptionWrapper → Program UInt8 (List Line)
  | [] => fault i 1
  | w :: longOptions =>
    match w.option.name with
    | none => return []
    | some name =>
      if w.required ≠ required then printOptions required (i + 1) longOptions
      else do
        let line ← printOption w name
        let lines ← printOptions required (i + 1) longOptions
        return line :: lines

/-- `stack` is what the two calls find in their arrays. -/
def usage (stack : Bool → CharArray bufsize) (progName doc : CString)
    (longOptions : List OptionWrapper) (full : Bool) : Except Fault (List UInt8) := do
  let head := text "Usage: " ++ progName.bytes ++ text " [options]\n"
  if !full then
    return head ++ text "Use --help (or -h) to see full option list.\n"
  let (required, _) ← printOptions true 0 longOptions (stack true).toList
  let (other, _) ← printOptions false 0 longOptions (stack false).toList
  return head ++ text "\nDOCUMENTATION:\n " ++ doc.bytes ++ text "\n" ++
    text "Required options:\n" ++ required.flatMap (·.stdout) ++ text "\n" ++
    text "Other options:\n" ++ other.flatMap (·.stdout) ++ text "\n"

/-- The second `snprintf` of a round is given the rest of the array, and the array holds
a string when it is printed. -/
structure InBuffer (line : Line) : Prop where
  start : ∀ call ∈ line.second, 0 ≤ call.1 ∧ call.1 ≤ bufsize ∧ (call.2 : ℤ) = bufsize - call.1
  length : line.buf.length = bufsize
  ended : 0 ∈ line.buf

def ShortName (w : OptionWrapper) : Prop :=
  w.metavar.isSome → ∀ name ∈ w.option.name, strlen name ≤ 27

def entryText (w : OptionWrapper) (name : CString) : List UInt8 :=
  longOption name ++ (w.metavar.elim [] argument)

def entryLine (w : OptionWrapper) (name : CString) : List UInt8 :=
  shortOption w.option.val ++ padded ((entryText w name).take 29) ++ text "  " ++
    formatString w.help ++ text "\n"

section Runs

theorem toSize_of_lt {n : ℤ} (hn : 0 ≤ n) (h : n < 2 ^ 64) : toSize n = n.toNat := by
  rw [toSize, Int.emod_eq_of_lt hn h]

theorem toSize_natCast {n : ℕ} (h : n < 2 ^ 64) : toSize n = n := by
  rw [toSize_of_lt (by omega) (by omega), Int.toNat_natCast]

theorem bind_error {β γ : Type} {m : Program UInt8 β} {f : β → Program UInt8 γ} {buf : List UInt8}
    {e : Fault} (h : m buf = .error e) : (m >>= f) buf = .error e := by
  change Except.bind (m buf) (fun s ↦ f s.1 s.2) = .error e
  rw [h]
  rfl

/-- A call that is given exactly the part `old` of the array which is left. -/
theorem snprintf_run (front old : List UInt8) (hfront : front.length < 2 ^ 64)
    (hold : 0 < old.length) (s : List UInt8) : ∃ rest,
    snprintf front.length old.length s (front ++ old) =
        .ok (if s.length ≤ intMax then s.length else -1,
          front ++ (s.take (old.length - 1) ++ 0 :: rest)) ∧
      (s.take (old.length - 1) ++ 0 :: rest).length = old.length := by
  have hwritten : (s.take (old.length - 1) ++ [0]).length ≤ old.length := by
    rw [List.length_append, List.length_take, List.length_singleton]
    omega
  have hroom : front.length + (s.take (old.length - 1) ++ [0]).length ≤ (front ++ old).length := by
    have hlen : (front ++ old).length = front.length + old.length := List.length_append
    omega
  have hstore : overwrite (front ++ old) front.length (s.take (old.length - 1) ++ [0]) = front ++
      (s.take (old.length - 1) ++ 0 :: old.drop (s.take (old.length - 1) ++ [0]).length) := by
    simp [overwrite]
  refine ⟨old.drop (s.take (old.length - 1) ++ [0]).length, ?_, ?_⟩
  · rw [snprintf, if_pos (by omega), toSize_natCast hfront, bind_run (store_run hroom), hstore]
    rfl
  · simp only [List.length_append, List.length_cons, List.length_drop, List.length_nil]
      at hwritten ⊢
    omega

theorem readString_run {s : List UInt8} (hs : 0 ∉ s) (rest : List UInt8) :
    readString (s ++ 0 :: rest) = .ok (s, s ++ 0 :: rest) := by
  have hne : ∀ b ∈ s, decide (b ≠ 0) = true := fun b hb ↦ by
    simpa using ne_of_mem_of_not_mem hb hs
  rw [readString, if_pos (by simp), List.takeWhile_append_of_pos hne]
  simp

theorem length_longOption (name : CString) : (longOption name).length = strlen name + 3 := rfl

theorem zero_notMem_longOption (name : CString) : 0 ∉ longOption name := by
  have hname := name.noNul
  simp [longOption, hname]

theorem zero_notMem_entryText (w : OptionWrapper) (name : CString) : 0 ∉ entryText w name := by
  have hname := zero_notMem_longOption name
  cases hw : w.metavar with
  | none => simp [entryText, hw, hname]
  | some metavar =>
    have hmetavar := metavar.noNul
    simp [entryText, hw, hname, argument, hmetavar]

/-- The second call, for a text that ends in the array or right behind it. -/
theorem printMetavar_run {t rest : List UInt8} (ht : t.length ≤ 30)
    (hlen : (t.take 29 ++ 0 :: rest).length = 30) (metavar : CString) : ∃ rest',
    printMetavar t.length (some metavar) (t.take 29 ++ 0 :: rest) =
        .ok (some (t.length, 30 - t.length), (t ++ argument metavar).take 29 ++ 0 :: rest') ∧
      ((t ++ argument metavar).take 29 ++ 0 :: rest').length = 30 := by
  have hsize : toSize ((30 : ℕ) - t.length) = 30 - t.length := by
    rw [toSize_of_lt (by omega) (by omega)]
    omega
  rw [List.take_append, printMetavar, hsize]
  by_cases hin : t.length ≤ 29
  · rw [List.take_of_length_le hin] at hlen ⊢
    rw [List.length_append] at hlen
    have hold : (0 :: rest).length = 30 - t.length := by omega
    obtain ⟨rest', hrun, hlen'⟩ := snprintf_run t (0 :: rest) (by omega) (by simp)
      (argument metavar)
    rw [hold, show 30 - t.length - 1 = 29 - t.length by omega] at hrun hlen'
    refine ⟨rest', ?_, ?_⟩
    · rw [List.append_assoc]
      exact bind_run hrun
    · rw [List.append_assoc, List.length_append, hlen']
      omega
  · -- Nothing is left, and a call with size zero writes nothing.
    rw [show 29 - t.length = 0 by omega, show 30 - t.length = 0 by omega, List.take_zero,
      List.append_nil]
    exact ⟨rest, rfl, hlen⟩

variable {w : OptionWrapper} {name : CString} {buf : List UInt8}

theorem printOption_of_calls {pos : ℤ} {first rest : List UInt8} {second : Option (ℤ × ℕ)}
    (hfirst : snprintf 0 30 (longOption name) buf = .ok (pos, first))
    (hsecond : printMetavar pos w.metavar first =
      .ok (second, (entryText w name).take 29 ++ 0 :: rest)) :
    printOption w name buf =
      .ok (⟨second, (entryText w name).take 29 ++ 0 :: rest, entryLine w name⟩,
        (entryText w name).take 29 ++ 0 :: rest) := by
  have hshown : 0 ∉ (entryText w name).take 29 :=
    fun hmem ↦ zero_notMem_entryText w name (List.mem_of_mem_take hmem)
  have hget : (get : Program UInt8 (List UInt8)) ((entryText w name).take 29 ++ 0 :: rest) =
      .ok ((entryText w name).take 29 ++ 0 :: rest, (entryText w name).take 29 ++ 0 :: rest) := rfl
  rw [printOption, bind_run hfirst, bind_run hsecond, bind_run hget,
    bind_run (readString_run hshown rest), pure_run, entryLine]

theorem printOption_run (hname : w.metavar.isSome → strlen name ≤ 27) (hbuf : buf.length = 30) :
    ∃ line buf', printOption w name buf = .ok (line, buf') ∧ buf'.length = 30 ∧ InBuffer line ∧
      line.stdout = entryLine w name := by
  have hlong := length_longOption name
  obtain ⟨rest, hfirst, hlen⟩ := snprintf_run [] buf (by decide) (by omega)
    (longOption name)
  rw [hbuf] at hfirst hlen
  have hended (rest : List UInt8) : 0 ∈ (entryText w name).take 29 ++ 0 :: rest := by simp
  cases hw : w.metavar with
  | none =>
    have htext : entryText w name = longOption name := by simp [entryText, hw]
    have hsecond (pos : ℤ) : printMetavar pos w.metavar ((longOption name).take 29 ++ 0 :: rest) =
        .ok (none, (entryText w name).take 29 ++ 0 :: rest) := by
      rw [hw, htext]
      rfl
    rw [← htext] at hlen
    exact ⟨_, _, printOption_of_calls hfirst (hsecond _), hlen, ⟨by simp, hlen, hended rest⟩, rfl⟩
  | some metavar =>
    have htext : entryText w name = longOption name ++ argument metavar := by simp [entryText, hw]
    have hshort : strlen name ≤ 27 := hname (by simp [hw])
    rw [if_pos (by rw [hlong]; simp only [intMax]; omega)] at hfirst
    obtain ⟨rest', hsecond, hlen'⟩ := printMetavar_run (by omega) hlen metavar
    rw [← htext] at hsecond hlen'
    rw [← hw] at hsecond
    refine ⟨_, _, printOption_of_calls hfirst hsecond, hlen', ⟨?_, hlen', hended rest'⟩, rfl⟩
    rintro _ ⟨⟩
    unfold bufsize
    omega

theorem snprintf_fault {buf : List UInt8} {pos : ℤ} {size : ℕ} (hsize : size ≠ 0)
    (hpos : buf.length ≤ toSize pos) (s : List UInt8) : snprintf pos size s buf =
      .error (.outOfBounds (toSize pos) (s.take (size - 1) ++ [0]).length) := by
  rw [snprintf, if_pos hsize]
  refine bind_error (if_neg ?_)
  rw [List.length_append, List.length_singleton]
  omega

/-- The start lies behind the array, or in front of it for a text that an `int` cannot
count, and the size that is left for it is not zero. -/
theorem printOption_fault (hw : w.metavar.isSome) (hname : 27 < strlen name)
    (hbuf : buf.length = 30) : ∃ e, printOption w name buf = .error e := by
  have hlong := length_longOption name
  obtain ⟨metavar, hw⟩ := Option.isSome_iff_exists.mp hw
  obtain ⟨rest, hfirst, hlen⟩ := snprintf_run [] buf (by decide) (by omega)
    (longOption name)
  rw [hbuf] at hfirst hlen
  generalize hpos : (if (longOption name).length ≤ intMax then ((longOption name).length : ℤ)
    else -1) = pos at hfirst
  have hrange : pos = -1 ∨ 30 < pos ∧ pos ≤ 2147483647 := by
    rw [← hpos, hlong]
    split_ifs with hint
    · unfold intMax at hint
      omega
    · exact Or.inl rfl
  have hstart : 30 ≤ toSize pos := by
    unfold toSize
    omega
  have hsize : toSize ((30 : ℕ) - pos) ≠ 0 := by
    unfold toSize
    omega
  have hsecond := snprintf_fault hsize (hlen.trans_le hstart) (argument metavar)
  have hrun : printMetavar pos (some metavar) ((longOption name).take 29 ++ 0 :: rest) = .error _ :=
    bind_error hsecond
  rw [← hw] at hrun
  exact ⟨_, (bind_run hfirst).trans (bind_error hrun)⟩

def optionsText (required : Bool) (entries : List OptionWrapper) : List UInt8 :=
  entries.flatMap fun w ↦
    if w.required ≠ required then [] else w.option.name.elim [] (entryLine w)

theorem shortName_iff (hw : w.option.name = some name) :
    ShortName w ↔ (w.metavar.isSome → strlen name ≤ 27) := by
  simp [ShortName, hw]

variable {required : Bool} {entries : List OptionWrapper}

theorem printOptions_skip (hw : w.option.name = some name) (hreq : w.required ≠ required) (i : ℕ)
    (rest : List OptionWrapper) :
    printOptions required i (w :: rest) = printOptions required (i + 1) rest := by
  simp only [printOptions, hw, if_pos hreq]

theorem printOptions_cons (hw : w.option.name = some name) (hreq : w.required = required) (i : ℕ)
    (rest : List OptionWrapper) :
    printOptions required i (w :: rest) = do
      let line ← printOption w name
      let lines ← printOptions required (i + 1) rest
      return line :: lines := by
  simp only [printOptions, hw, hreq, ne_eq, not_true_eq_false, if_false]

theorem printOptions_run (t : WrapperTable) (hentries : ∀ w ∈ entries, w.option.name.isSome)
    (hshort : ∀ w ∈ entries, w.required = required → ShortName w) (i : ℕ)
    (hbuf : buf.length = 30) : ∃ lines buf',
    printOptions required i (entries ++ [t.terminator]) buf = .ok (lines, buf') ∧
      (∀ line ∈ lines, InBuffer line) ∧
      lines.flatMap (·.stdout) = optionsText required entries := by
  induction entries generalizing i buf with
  | nil =>
    refine ⟨[], buf, ?_, by simp, rfl⟩
    simp only [List.nil_append, printOptions, t.ended]
    rfl
  | cons w entries ih =>
    have hentries' : ∀ v ∈ entries, v.option.name.isSome :=
      fun v hv ↦ hentries v (List.mem_cons_of_mem w hv)
    have hshort' : ∀ v ∈ entries, v.required = required → ShortName v :=
      fun v hv ↦ hshort v (List.mem_cons_of_mem w hv)
    obtain ⟨name, hw⟩ := Option.isSome_iff_exists.mp (hentries w List.mem_cons_self)
    rw [List.cons_append]
    by_cases hreq : w.required = required
    · have hname := (shortName_iff hw).mp (hshort w List.mem_cons_self hreq)
      obtain ⟨line, buf₁, hline, hbuf₁, hin, hout⟩ := printOption_run hname hbuf
      obtain ⟨lines, buf₂, hlines, hall, htext⟩ := ih hentries' hshort' (i + 1) hbuf₁
      refine ⟨line :: lines, buf₂, ?_, by simpa using ⟨hin, hall⟩, ?_⟩
      · rw [printOptions_cons hw hreq, bind_run hline, bind_run hlines]
        rfl
      · rw [List.flatMap_cons, hout, htext, optionsText, optionsText, List.flatMap_cons,
          if_neg (not_not.mpr hreq), hw]
        rfl
    · rw [printOptions_skip hw hreq]
      obtain ⟨lines, buf₁, hlines, hall, htext⟩ := ih hentries' hshort' (i + 1) hbuf
      refine ⟨lines, buf₁, hlines, hall, htext.trans ?_⟩
      rw [optionsText, optionsText, List.flatMap_cons, if_pos hreq, List.nil_append]

theorem printOptions_fault (t : WrapperTable) (hentries : ∀ w ∈ entries, w.option.name.isSome)
    (hlong : ∃ w ∈ entries, w.required = required ∧ ¬ ShortName w) (i : ℕ)
    (hbuf : buf.length = 30) :
    ∃ e, printOptions required i (entries ++ [t.terminator]) buf = .error e := by
  induction entries generalizing i buf with
  | nil => simp at hlong
  | cons w entries ih =>
    obtain ⟨v, hv, hvreq, hvlong⟩ := hlong
    have hentries' : ∀ u ∈ entries, u.option.name.isSome :=
      fun u hu ↦ hentries u (List.mem_cons_of_mem w hu)
    have hlong' (hne : v ≠ w) : ∃ u ∈ entries, u.required = required ∧ ¬ ShortName u :=
      ⟨v, List.mem_of_ne_of_mem hne hv, hvreq, hvlong⟩
    obtain ⟨name, hw⟩ := Option.isSome_iff_exists.mp (hentries w List.mem_cons_self)
    rw [List.cons_append]
    by_cases hreq : w.required = required
    · rw [printOptions_cons hw hreq]
      by_cases hshort : ShortName w
      · have hne : v ≠ w := fun heq ↦ hvlong (heq ▸ hshort)
        obtain ⟨line, buf₁, hline, hbuf₁, _⟩ := printOption_run ((shortName_iff hw).mp hshort) hbuf
        obtain ⟨e, he⟩ := ih hentries' (hlong' hne) (i + 1) hbuf₁
        exact ⟨e, (bind_run hline).trans (bind_error he)⟩
      · rw [shortName_iff hw, Classical.not_imp, Nat.not_le] at hshort
        obtain ⟨e, he⟩ := printOption_fault hshort.1 hshort.2 hbuf
        exact ⟨e, bind_error he⟩
    · rw [printOptions_skip hw hreq]
      have hne : v ≠ w := fun heq ↦ hreq (heq ▸ hvreq)
      exact ih hentries' (hlong' hne) (i + 1) hbuf

end Runs

/-- Every round stays inside the array exactly for names that leave the start of a metavar
inside it. -/
theorem print_options_in_buffer (t : WrapperTable) (required : Bool) (buf : CharArray bufsize) :
    (∃ lines buf', printOptions required 0 t.array buf.toList = .ok (lines, buf') ∧
        ∀ line ∈ lines, InBuffer line) ↔
      ∀ w ∈ t.entries, w.required = required → w.metavar.isSome →
        ∀ name ∈ w.option.name, strlen name ≤ 27 := by
  constructor
  · rintro ⟨lines, buf', hrun, _⟩
    by_contra hlong
    push Not at hlong
    obtain ⟨w, hw, hreq, hmetavar, name, hname, hlen⟩ := hlong
    have hnot : ¬ ShortName w := fun h ↦ absurd (h hmetavar name hname) (Nat.not_le.mpr hlen)
    obtain ⟨e, he⟩ := printOptions_fault t t.named ⟨w, hw, hreq, hnot⟩ 0 buf.toList_length
    rw [WrapperTable.array, he] at hrun
    cases hrun
  · intro hshort
    obtain ⟨lines, buf', hrun, hall, _⟩ := printOptions_run t t.named hshort 0 buf.toList_length
    exact ⟨lines, buf', hrun, hall⟩

def longTable : WrapperTable where
  entries := [⟨⟨some (letters 28), 1, none, 97⟩, none, some (letters 1), false⟩]
  named := List.forall_mem_singleton.mpr rfl
  terminator := helpTable.terminator
  ended := helpTable.ended

theorem print_options_overflow :
    printOptions false 0 longTable.array (List.replicate 30 0) = .error (.outOfBounds 31 3) ∧
      ¬ ∃ lines buf', printOptions false 0 longTable.array (List.replicate 30 0) =
        .ok (lines, buf') ∧ ∀ line ∈ lines, InBuffer line := by
  have hfault : printOptions false 0 longTable.array (List.replicate 30 0) =
      .error (.outOfBounds 31 3) := rfl
  refine ⟨hfault, ?_⟩
  rintro ⟨lines, buf', hrun, _⟩
  rw [hfault] at hrun
  cases hrun

/-- The help does not depend on what the arrays held before. -/
theorem usage_run (stack : Bool → CharArray bufsize) (progName doc : CString) (t : WrapperTable)
    (hshort : ∀ w ∈ t.entries, ShortName w) :
    usage stack progName doc t.array true = .ok
      (text "Usage: " ++ progName.bytes ++ text " [options]\n" ++ text "\nDOCUMENTATION:\n " ++
        doc.bytes ++ text "\n" ++ text "Required options:\n" ++ optionsText true t.entries ++
        text "\n" ++ text "Other options:\n" ++ optionsText false t.entries ++ text "\n") := by
  obtain ⟨lines, buf, hrun, _, htext⟩ := printOptions_run t t.named
    (fun w hw (_ : w.required = true) ↦ hshort w hw) 0 (stack true).toList_length
  obtain ⟨lines', buf', hrun', _, htext'⟩ := printOptions_run t t.named
    (fun w hw (_ : w.required = false) ↦ hshort w hw) 0 (stack false).toList_length
  rw [← WrapperTable.array] at hrun hrun'
  rw [usage, hrun, hrun', ← htext, ← htext']
  rfl

end KernelBypass.Common.UsageText
