import KernelBypass.Benchmarks.PingSamples

namespace KernelBypass.Benchmarks.PingAgreement

open Foundation TextScan Collect Python PingSamples

variable {β : Type} (digits : DigitClass) (float : Text → Except PyError β)

/-- All three give the same samples, or all three raise an exception. -/
def Agree (f : TextFile) : Prop :=
  (∃ samples, csvParsePing digits float f = .ok samples ∧
    graphsParsePing float f = .ok ⟨f.stem, samples⟩ ∧ loadPingTimes digits float f = .ok samples) ∨
  ∃ e e' e'', csvParsePing digits float f = .error e ∧ graphsParsePing float f = .error e' ∧
    loadPingTimes digits float f = .error e''

/-- Some line has `time=`. In each such line the word behind the first `time=` is the first
number directly behind one, and no other end of a line than that of the file stands
between two such lines. -/
structure Readable (f : TextFile) : Prop where
  sampled : ∃ line ∈ splitlines f.readText, Marked line
  clean : ∀ line ∈ splitlines f.readText, Marked line →
    ∃ s, FirstNumber digits line s ∧ FirstWordBehind line s ∧ Accepts float s
  single : ∀ line ∈ f.lines, (splitlines line).countP (Marked ·) ≤ 1

/-- Some line has no number for a word behind its first `time=`, and no line has a number
directly behind one, or the first one of some line of the file is none. -/
structure Unreadable (f : TextFile) : Prop where
  word : ∃ line ∈ splitlines f.readText, Marked line ∧
    ∀ w, FirstWordBehind line w → ¬ Accepts float w
  number : (∀ line ∈ splitlines f.readText, ∀ s, ¬ FirstNumber digits line s) ∨
    ∃ line ∈ f.lines, ∃ s, FirstNumber digits line s ∧ ¬ Accepts float s

variable {digits float} {f : TextFile}

section Functions

theorem checked_eq_ok_iff {δ : Type} {x : Except PyError (List δ)} {e : PyError} {r : List δ} :
    (do
      let l ← x
      if l.isEmpty then
        throw e
      return l) = .ok r ↔ x = .ok r ∧ r ≠ [] := by
  cases x with
  | error e' => simp [bind, Except.bind]
  | ok l =>
    cases l with
    | nil => simp [bind, Except.bind, throw, throwThe, MonadExceptOf.throw]
    | cons a l =>
      simp only [bind, Except.bind, pure, Except.pure, List.isEmpty_cons]
      constructor
      · rintro ⟨⟩
        exact ⟨rfl, List.cons_ne_nil a l⟩
      · rintro ⟨⟨⟩, _⟩
        rfl

theorem csvParsePing_eq_ok_iff {r : List (Sample β)} : csvParsePing digits float f = .ok r ↔
    collect (searchLine digits float) (splitlines f.readText) = .ok r ∧ r ≠ [] :=
  checked_eq_ok_iff

theorem loadPingTimes_eq_ok_iff {r : List (Sample β)} : loadPingTimes digits float f = .ok r ↔
    collect (searchLine digits float) f.lines = .ok r ∧ r ≠ [] :=
  checked_eq_ok_iff

theorem graphsParsePing_eq_ok_iff {r : List (Sample β)} :
    graphsParsePing float f = .ok ⟨f.stem, r⟩ ↔
      collect (splitLine float) (splitlines f.readText) = .ok r := by
  rw [graphsParsePing, bind_eq_ok_iff]
  simp [pure, Except.pure]

end Functions

section Pieces

theorem matchTime_local : Local isLineBreak (matchTime digits) where
  nil := rfl
  append := by
    intro l c rest _ hc
    have hpat : ∀ d ∈ timeEq, isLineBreak d = false := by
      have hall : timeEq.all (!isLineBreak ·) = true := rfl
      exact fun d hd ↦ (Bool.not_eq_true' _).mp (List.all_eq_true.mp hall d hd)
    have hnumeral : isNumeral digits c = false := by
      have hdot : c ≠ '.' := by
        rintro rfl
        cases hc
      simp [isNumeral, digits.noBreak c hc, hdot]
    have htake (x : Text) : (x ++ c :: rest).takeWhile (isNumeral digits) =
        x.takeWhile (isNumeral digits) := by
      obtain ⟨w, back, rfl, hw, hback⟩ := exists_solid (fun d ↦ !isNumeral digits d) x
      have hw' : ∀ d ∈ w, isNumeral digits d = true := by simpa using hw
      rw [List.append_assoc, takeWhile_eq_of_head? hw', takeWhile_eq_of_head? hw']
      · simpa using hback
      · cases back with
        | nil => simpa using hnumeral
        | cons d back => simpa using hback
    rw [matchTime, following_append hpat hc, matchTime]
    cases following timeEq l with
    | none => rfl
    | some x =>
      rw [Option.map_some, Option.bind_some, Option.bind_some]
      simp only [htake]

theorem search_splitlines {line : Text} (h : line ∈ f.lines) :
    search digits line = (splitlines line).findSome? (search digits) := by
  rw [splitlines_line h]
  exact leftmost_pieces matchTime_local line

/-- What is found in a line of the file is what is found in the first of its pieces that
has something. -/
theorem found_searchLine {line : Text} (h : line ∈ f.lines)
    (hok : ∀ l ∈ splitlines line, ∃ o, searchLine digits float l = .ok o) :
    found (searchLine digits float) line =
      ((splitlines line).filterMap (found (searchLine digits float))).head? := by
  have hfound (l : Text) : found (searchLine digits float) l =
      (search digits l).bind fun s ↦ (convert float s).toOption.join := by
    rw [found, searchLine]
    cases search digits l <;> rfl
  have hvalue : ∀ l ∈ splitlines line, ∀ s, search digits l = some s →
      ((convert float s).toOption.join).isSome := by
    intro l hl s hs
    obtain ⟨value, hvalue⟩ := searchLine_ok_iff.mp (hok l hl) s (search_eq_some_iff.mp hs)
    simp [convert, hvalue, bind, Except.bind, pure, Except.pure, Except.toOption]
  rw [List.head?_filterMap, hfound, search_splitlines h, findSome?_bind hvalue]
  exact congrArg (List.findSome? · _) (funext fun l ↦ (hfound l).symm)

theorem searchLine_ok_of_pieces {line : Text} (h : line ∈ f.lines)
    (hok : ∀ l ∈ splitlines line, ∃ o, searchLine digits float l = .ok o) :
    ∃ o, searchLine digits float line = .ok o := by
  rw [searchLine_ok_iff]
  intro s hs
  rw [← search_eq_some_iff, search_splitlines h] at hs
  obtain ⟨l, hl, hls⟩ := List.exists_of_findSome?_eq_some hs
  exact searchLine_ok_iff.mp (hok l hl) s (search_eq_some_iff.mp hls)

theorem mem_splitlines_of_piece {line l : Text} (hline : line ∈ f.lines)
    (hl : l ∈ splitlines line) : l ∈ splitlines f.readText := by
  rw [splitlines_readText]
  exact List.mem_flatMap.mpr ⟨line, hline, hl⟩

end Pieces

section Accepted

/-- Where every line of the text can be read, the two searches find the same samples when
no line of the file holds two. -/
theorem same_samples_iff
    (hok : ∀ l ∈ splitlines f.readText, ∃ o, searchLine digits float l = .ok o) :
    f.lines.filterMap (found (searchLine digits float)) =
        (splitlines f.readText).filterMap (found (searchLine digits float)) ↔
      ∀ line ∈ f.lines, ((splitlines line).filterMap (found (searchLine digits float))).length ≤ 1 := by
  have hhead : ∀ line ∈ f.lines, found (searchLine digits float) line =
      ((splitlines line).filterMap (found (searchLine digits float))).head? := fun line hline ↦
    found_searchLine hline fun l hl ↦ hok l (mem_splitlines_of_piece hline hl)
  rw [← filterMap_head?_eq_flatMap_iff, List.filterMap_congr hhead, splitlines_readText,
    List.filterMap_flatMap]

/-- A line is clean when both ways of reading it find the same. -/
theorem clean_iff {line : Text} :
    (Marked line → ∃ s, FirstNumber digits line s ∧ FirstWordBehind line s ∧ Accepts float s) ↔
      ∃ o, searchLine digits float line = .ok o ∧ splitLine float line = .ok o := by
  constructor
  · intro h
    by_cases hmarked : Marked line
    · obtain ⟨s, hnumber, hword, value, hvalue⟩ := h hmarked
      exact ⟨some ⟨s, value⟩, searchLine_eq_some_iff.mpr ⟨hnumber, hvalue⟩,
        splitLine_eq_some_iff.mpr ⟨hword, hvalue⟩⟩
    · exact ⟨none, searchLine_eq_none_iff.mpr fun s hs ↦ hmarked hs.marked,
        splitLine_eq_none_iff.mpr hmarked⟩
  · rintro ⟨o, hsearch, hsplit⟩ hmarked
    cases o with
    | none => exact absurd hmarked (splitLine_eq_none_iff.mp hsplit)
    | some a =>
      obtain ⟨hword, hvalue⟩ := splitLine_eq_some_iff.mp hsplit
      exact ⟨a.text, (searchLine_eq_some_iff.mp hsearch).1, hword, a.value, hvalue⟩

theorem isSome_found_splitLine {line : Text} (hok : ∃ o, splitLine float line = .ok o) :
    (found (splitLine float) line).isSome ↔ Marked line := by
  obtain ⟨o, ho⟩ := hok
  rw [found_of_ok ho]
  cases o with
  | none => simpa using splitLine_eq_none_iff.mp ho
  | some a =>
    refine iff_of_true rfl (not_not.mp fun hnot ↦ ?_)
    rw [splitLine_eq_none_iff.mpr hnot] at ho
    cases ho

theorem marked_of_found {line : Text} (hok : ∃ o, searchLine digits float line = .ok o)
    (h : (found (searchLine digits float) line).isSome) : Marked line := by
  obtain ⟨o, ho⟩ := hok
  rw [found_of_ok ho] at h
  obtain ⟨a, rfl⟩ := Option.isSome_iff_exists.mp h
  exact (searchLine_eq_some_iff.mp ho).1.marked

theorem single_iff
    (hclean : ∀ l ∈ splitlines f.readText, ∃ o, searchLine digits float l = .ok o ∧
      splitLine float l = .ok o) :
    f.lines.filterMap (found (searchLine digits float)) =
        (splitlines f.readText).filterMap (found (searchLine digits float)) ↔
      ∀ line ∈ f.lines, (splitlines line).countP (Marked ·) ≤ 1 := by
  rw [same_samples_iff fun l hl ↦ (hclean l hl).imp fun _ h ↦ h.1]
  refine forall₂_congr fun line hline ↦ ?_
  rw [List.length_filterMap_eq_countP]
  have hcount : (splitlines line).countP (fun l ↦ (found (searchLine digits float) l).isSome) =
      (splitlines line).countP (Marked ·) := by
    apply List.countP_congr
    intro l hl
    obtain ⟨o, hsearch, hsplit⟩ := hclean l (mem_splitlines_of_piece hline hl)
    rw [found_of_ok hsearch, ← found_of_ok hsplit, isSome_found_splitLine ⟨o, hsplit⟩,
      decide_eq_true_iff]
  rw [hcount]

theorem accepted_iff : (∃ samples, csvParsePing digits float f = .ok samples ∧
      graphsParsePing float f = .ok ⟨f.stem, samples⟩ ∧
      loadPingTimes digits float f = .ok samples) ↔ Readable digits float f := by
  simp only [csvParsePing_eq_ok_iff, graphsParsePing_eq_ok_iff, loadPingTimes_eq_ok_iff,
    collect_eq_ok_iff]
  constructor
  · rintro ⟨r, ⟨⟨hsearch, hcsv⟩, hne⟩, ⟨hsplit, hgraphs⟩, ⟨hlines, hload⟩, _⟩
    have himp : ∀ l ∈ splitlines f.readText, (found (searchLine digits float) l).isSome →
        (found (splitLine float) l).isSome := fun l hl h ↦
      (isSome_found_splitLine (hsplit l hl)).mpr (marked_of_found (hsearch l hl) h)
    have hsame := (filterMap_eq_iff himp).mp (hcsv.trans hgraphs.symm)
    have hclean : ∀ l ∈ splitlines f.readText, ∃ o, searchLine digits float l = .ok o ∧
        splitLine float l = .ok o := by
      intro l hl
      obtain ⟨o, ho⟩ := hsearch l hl
      obtain ⟨o', ho'⟩ := hsplit l hl
      have heq := hsame l hl
      rw [found_of_ok ho, found_of_ok ho'] at heq
      exact ⟨o, ho, heq ▸ ho'⟩
    refine ⟨?_, fun l hl ↦ clean_iff.mpr (hclean l hl), ?_⟩
    · obtain ⟨a, ha⟩ := List.exists_mem_of_ne_nil r hne
      rw [← hcsv] at ha
      obtain ⟨l, hl, hla⟩ := List.mem_filterMap.mp ha
      exact ⟨l, hl, marked_of_found (hsearch l hl) (by rw [hla]; rfl)⟩
    · exact (single_iff hclean).mp (hload.trans hcsv.symm)
  · rintro ⟨⟨line, hline, hmarked⟩, hclean, hsingle⟩
    have hboth : ∀ l ∈ splitlines f.readText, ∃ o, searchLine digits float l = .ok o ∧
        splitLine float l = .ok o := fun l hl ↦ clean_iff.mp (hclean l hl)
    have hsearch : ∀ l ∈ splitlines f.readText, ∃ o, searchLine digits float l = .ok o :=
      fun l hl ↦ (hboth l hl).imp fun _ h ↦ h.1
    have hsame : ∀ l ∈ splitlines f.readText, found (splitLine float) l =
        found (searchLine digits float) l := by
      intro l hl
      obtain ⟨o, ho, ho'⟩ := hboth l hl
      rw [found_of_ok ho, found_of_ok ho']
    have hload := (single_iff hboth).mpr hsingle
    have hne : (splitlines f.readText).filterMap (found (searchLine digits float)) ≠ [] := by
      obtain ⟨o, ho, ho'⟩ := hboth line hline
      have hsome := (isSome_found_splitLine ⟨o, ho'⟩).mpr hmarked
      rw [hsame line hline] at hsome
      obtain ⟨a, ha⟩ := Option.isSome_iff_exists.mp hsome
      exact List.ne_nil_of_mem (List.mem_filterMap.mpr ⟨line, hline, ha⟩)
    refine ⟨_, ⟨⟨hsearch, rfl⟩, hne⟩, ⟨fun l hl ↦ (hboth l hl).imp fun _ h ↦ h.2,
      List.filterMap_congr hsame⟩, ⟨?_, hload⟩, hne⟩
    exact fun line hline ↦ searchLine_ok_of_pieces hline fun l hl ↦
      hsearch l (mem_splitlines_of_piece hline hl)

end Accepted

section Rejected

theorem error_iff {δ : Type} {x : Except PyError δ} :
    (∃ e, x = .error e) ↔ ∀ r, x ≠ .ok r := by
  cases x with
  | error e => simp
  | ok r => simp

theorem graphsParsePing_error_iff : (∃ e, graphsParsePing float f = .error e) ↔
    ∃ line ∈ splitlines f.readText, Marked line ∧
      ∀ w, FirstWordBehind line w → ¬ Accepts float w := by
  have hok : (∃ r, graphsParsePing float f = .ok r) ↔
      ∀ line ∈ splitlines f.readText, ∃ o, splitLine float line = .ok o := by
    simp [graphsParsePing, bind_eq_ok_iff, collect_eq_ok_iff, pure, Except.pure]
  rw [error_iff, ← not_exists, hok]
  simp only [splitLine_ok_iff]
  push Not
  rfl

theorem no_number_iff : (∀ l ∈ splitlines f.readText, ∀ s, ¬ FirstNumber digits l s) ↔
    ∀ line ∈ f.lines, ∀ s, ¬ FirstNumber digits line s := by
  simp only [← search_eq_none_iff]
  rw [splitlines_readText, List.forall_mem_flatMap]
  refine forall₂_congr fun line hline ↦ ?_
  rw [search_splitlines hline, List.findSome?_eq_none_iff]

variable (digits float) in
/-- No line has a number, or the first one of some line is no float. -/
def SearchRejects (lines : List Text) : Prop :=
  (∀ line ∈ lines, ∀ s, ¬ FirstNumber digits line s) ∨
    ∃ line ∈ lines, ∃ s, FirstNumber digits line s ∧ ¬ Accepts float s

theorem searchRejects_iff {lines : List Text} : SearchRejects digits float lines ↔
    ∀ r, ¬ (collect (searchLine digits float) lines = .ok r ∧ r ≠ []) := by
  constructor
  · rintro hrejects r ⟨hr, hne⟩
    obtain ⟨hok, rfl⟩ := collect_eq_ok_iff.mp hr
    rcases hrejects with hnone | ⟨line, hline, s, hs, hnot⟩
    · refine hne (List.filterMap_eq_nil_iff.mpr fun line hline ↦ ?_)
      exact found_of_ok (searchLine_eq_none_iff.mpr (hnone line hline))
    · exact hnot (searchLine_ok_iff.mp (hok line hline) s hs)
  · intro h
    by_cases hok : ∀ line ∈ lines, ∃ o, searchLine digits float line = .ok o
    · left
      intro line hline s hs
      obtain ⟨value, hvalue⟩ := searchLine_ok_iff.mp (hok line hline) s hs
      have hfound := found_of_ok (searchLine_eq_some_iff.mpr
        (show FirstNumber digits line (Sample.mk s value).text ∧ _ from ⟨hs, hvalue⟩))
      exact h _ ⟨collect_eq_ok_iff.mpr ⟨hok, rfl⟩,
        List.ne_nil_of_mem (List.mem_filterMap.mpr ⟨line, hline, hfound⟩)⟩
    · right
      simp only [searchLine_ok_iff] at hok
      push Not at hok
      exact hok

theorem csvParsePing_error_iff : (∃ e, csvParsePing digits float f = .error e) ↔
    SearchRejects digits float (splitlines f.readText) := by
  rw [error_iff, searchRejects_iff]
  exact forall_congr' fun r ↦ not_congr csvParsePing_eq_ok_iff

theorem loadPingTimes_error_iff : (∃ e, loadPingTimes digits float f = .error e) ↔
    SearchRejects digits float f.lines := by
  rw [error_iff, searchRejects_iff]
  exact forall_congr' fun r ↦ not_congr loadPingTimes_eq_ok_iff

/-- A number that the search over the file meets is met by the search over the text. -/
theorem SearchRejects.splitlines (h : SearchRejects digits float f.lines) :
    SearchRejects digits float (splitlines f.readText) := by
  refine h.imp no_number_iff.mpr ?_
  rintro ⟨line, hline, s, hs, hnot⟩
  rw [← search_eq_some_iff, search_splitlines hline] at hs
  obtain ⟨l, hl, hls⟩ := List.exists_of_findSome?_eq_some hs
  exact ⟨l, mem_splitlines_of_piece hline hl, s, search_eq_some_iff.mp hls, hnot⟩

theorem rejected_iff : (∃ e e' e'', csvParsePing digits float f = .error e ∧
      graphsParsePing float f = .error e' ∧ loadPingTimes digits float f = .error e'') ↔
    Unreadable digits float f := by
  constructor
  · rintro ⟨e, e', e'', _, hgraphs, hload⟩
    have hrejects := loadPingTimes_error_iff.mp ⟨e'', hload⟩
    exact ⟨graphsParsePing_error_iff.mp ⟨e', hgraphs⟩, hrejects.imp_left no_number_iff.mpr⟩
  · rintro ⟨hword, hnumber⟩
    have hrejects : SearchRejects digits float f.lines := hnumber.imp_left no_number_iff.mp
    obtain ⟨e', hgraphs⟩ := graphsParsePing_error_iff.mpr hword
    obtain ⟨e'', hload⟩ := loadPingTimes_error_iff.mpr hrejects
    obtain ⟨e, hcsv⟩ := csvParsePing_error_iff.mpr hrejects.splitlines
    exact ⟨e, e', e'', hcsv, hgraphs, hload⟩

end Rejected

/-- The three functions agree on clean texts, and on those that all of them reject. Without
any sample one of them returns, and the others raise. -/
theorem ping_samples_agree_iff (digits : DigitClass) (float : Text → Except PyError β)
    (f : TextFile) : Agree digits float f ↔ Readable digits float f ∨ Unreadable digits float f :=
  or_congr accepted_iff rejected_iff

def pingFile (content : String) : TextFile := ⟨"benchmarks/ping.txt", "ping", content.toList⟩

example : Agree asciiDigits exactFloat
    (pingFile "64 bytes from 10.0.0.1: icmp_seq=1 ttl=64 time=0.031 ms\n") :=
  .inl ⟨_, rfl, rfl, rfl⟩

/-- Of a text without samples one function makes an empty series. A unit that follows
without a blank is read by the pattern only. -/
theorem ping_samples_disagree :
    (csvParsePing asciiDigits exactFloat (pingFile "") =
        .error (.valueError "No RTT samples in benchmarks/ping.txt") ∧
      graphsParsePing exactFloat (pingFile "") = .ok ⟨"ping", []⟩ ∧
      loadPingTimes asciiDigits exactFloat (pingFile "") =
        .error (.valueError "No ping RTTs parsed from benchmarks/ping.txt")) ∧
    ((∃ half, csvParsePing asciiDigits exactFloat (pingFile "time=0.5ms") =
        .ok [⟨"0.5".toList, half⟩]) ∧
      graphsParsePing exactFloat (pingFile "time=0.5ms") =
        .error (.valueError "could not convert string to float: '0.5ms'")) ∧
    ¬ Agree asciiDigits exactFloat (pingFile "") := by
  refine ⟨⟨rfl, rfl, rfl⟩, ⟨⟨_, rfl⟩, rfl⟩, ?_⟩
  · rintro (⟨samples, hcsv, _⟩ | ⟨e, e', e'', _, hgraphs, _⟩)
    · cases hcsv
    · cases hgraphs

end KernelBypass.Benchmarks.PingAgreement
