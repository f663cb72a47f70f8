import KernelBypass.Foundation.Decimal
import KernelBypass.Libxdp.Packets

namespace KernelBypass.Libxdp

open Common.CommonParams Common.MapFiles Foundation Decimal

abbrev enotempty : ℤ := 39

section Names

/-- The numbers that `sscanf` stores for `%d` and `%u`. A negative number is taken for the
unsigned one with the same bits, and what is stored for a number out of range is left open. -/
structure Conversion where
  toInt32 : ℤ → Int32
  toUInt32 : ℤ → UInt32
  int32 : ∀ n : Int32, toInt32 n.toInt = n
  uint32 : ∀ n : UInt32, toUInt32 n.toNat = n
  wraps : ∀ n : Int32, toUInt32 n.toInt = n.toUInt32

/-- The directory `dispatch-%d-%d` of a dispatcher. The id is printed as a signed number. -/
def dispatchName (ifindex : Int32) (progId : UInt32) : List UInt8 :=
  text "dispatch-" ++ (printInt ifindex.toInt ++ 45 :: printInt progId.toInt32.toInt)

variable (conv : Conversion)

def scanDispatch (name : List UInt8) : Option (Int32 × UInt32) := do
  let rest ← name.dropPrefix? (text "dispatch-")
  let (ifindex, rest) ← scanInt rest
  let rest ← rest.dropPrefix? [45]
  let (progId, _) ← scanInt rest
  return (conv.toInt32 ifindex, conv.toUInt32 progId)

theorem dropPrefix_append (l r : List UInt8) : (l ++ r).dropPrefix? l = some r := by
  rw [List.dropPrefix?_eq_some_iff]
  exact ⟨l, rfl, beq_self_eq_true l⟩

/-- The name of a directory tells the interface and the id of the dispatcher, whichever they
are: an id that is printed with a minus sign is read back as well. -/
theorem scanDispatch_dispatchName (ifindex : Int32) (progId : UInt32) :
    scanDispatch conv (dispatchName ifindex progId) = some (ifindex, progId) := by
  have hifindex := scanInt_printInt (l := 45 :: printInt progId.toInt32.toInt) ifindex.toInt
    (by rintro c ⟨⟩; rfl)
  have hprogId := scanInt_printInt (l := []) progId.toInt32.toInt (fun c hc ↦ nomatch hc)
  rw [List.append_nil] at hprogId
  rw [scanDispatch, dispatchName, dropPrefix_append]
  simp only [Option.bind_eq_bind, Option.bind_some]
  rw [hifindex]
  simp only [Option.bind_some]
  rw [← List.singleton_append, dropPrefix_append, Option.bind_some, hprogId]
  simp [conv.int32, conv.wraps]

end Names

section Cleaning

structure Dirent where
  name : List UInt8
  isDir : Bool

inductive BpffsEntry
  | file (name : List UInt8)
  | dir (name : List UInt8) (files : List Dirent)

/-- The answers to one call of `libxdp_clean_references`: the lock and the directory, the query
of an interface, which stores an id where a program is attached in software, and the removal of
directories. -/
structure CleanEnv where
  conv : Conversion
  acquire : Except ℤ Unit
  query : Int32 → Except ℤ (Option UInt32)
  opendir : List UInt8 → Except ℤ Unit
  unlink : List UInt8 → List UInt8 → Except ℤ Unit
  rmdir : List UInt8 → Except ℤ Unit

variable (env : CleanEnv)

/-- The loop of `remove_pin_dir`: how it ends, and what is left in the directory. -/
def removeFiles (subdir : List UInt8) : List Dirent → Except ℤ Unit × List Dirent
  | [] => (.ok (), [])
  | dent :: dents =>
    if dent.isDir then
      let (err, left) := removeFiles subdir dents
      (err, dent :: left)
    else
      match env.unlink subdir dent.name with
      | .error err => (.error err, dent :: dents)
      | .ok () => removeFiles subdir dents

def removePinDir (subdir : List UInt8) (files : List Dirent) : Except (ℤ × List Dirent) Unit :=
  match env.opendir subdir with
  | .error err => .error (err, files)
  | .ok () =>
    match removeFiles env subdir files with
    | (.error err, left) => .error (err, left)
    | (.ok (), []) => (env.rmdir subdir).mapError (·, [])
    | (.ok (), left) => .error (-enotempty, left)

/-- The variable `prog_id` after a query. What `xdp_get_ifindex_prog_id` returns is ignored, and
the variable keeps its value where the query fails or stores no id. -/
def CleanEnv.stored (i : Int32) (progId : UInt32) : UInt32 :=
  match env.query i with
  | .ok (some id) => id
  | _ => progId

def cleanLoop (ifindex : Int32) (progId : UInt32) :
    List BpffsEntry → Except ℤ Unit × List BpffsEntry
  | [] => (.ok (), [])
  | .file name :: entries =>
    let (err, left) := cleanLoop ifindex progId entries
    (err, .file name :: left)
  | .dir name files :: entries =>
    let keep (progId : UInt32) :=
      let (err, left) := cleanLoop ifindex progId entries
      (err, .dir name files :: left)
    match scanDispatch env.conv name with
    | none => keep progId
    | some (pathIfindex, dirProgId) =>
      if ifindex ≠ 0 ∧ pathIfindex ≠ ifindex then keep progId
      else
        let progId := env.stored pathIfindex progId
        if progId = 0 ∨ progId ≠ dirProgId then
          match removePinDir env name files with
          | .error (err, files) => (.error err, .dir name files :: entries)
          | .ok () => cleanLoop ifindex progId entries
        else keep progId

def cleanReferences (ifindex : Int32) (entries : List BpffsEntry) :
    Except ℤ Unit × List BpffsEntry :=
  match env.acquire with
  | .error err => (.error err, entries)
  | .ok () => cleanLoop env ifindex 0 entries

/-- Whether an entry is to stay: it is no directory of a dispatcher, or one of an interface
that is not asked for, or the dispatcher is attached and the query of its interface succeeds. -/
def keeps (attached : Int32 → Option UInt32) (ifindex : Int32) : BpffsEntry → Bool
  | .file _ => true
  | .dir name _ =>
    match scanDispatch env.conv name with
    | none => true
    | some (i, id) => (ifindex ≠ 0 ∧ i ≠ ifindex) ∨
        (id ≠ 0 ∧ attached i = some id ∧ (env.query i).isOk)

structure CleanEnv.Grants : Prop where
  acquire : env.acquire = .ok ()
  opendir : ∀ subdir, env.opendir subdir = .ok ()
  unlink : ∀ subdir name, env.unlink subdir name = .ok ()
  rmdir : ∀ subdir, env.rmdir subdir = .ok ()

def BpffsEntry.Flat : BpffsEntry → Prop
  | .file _ => True
  | .dir _ files => ∀ dent ∈ files, dent.isDir = false

variable (attached : Int32 → Option UInt32)

structure Cleaned (ifindex : Int32) (entries : List BpffsEntry)
    (r : Except ℤ Unit × List BpffsEntry) : Prop where
  kept : ∀ e ∈ entries, keeps env attached ifindex e → e ∈ r.2
  done : r.1 = .ok () → r.2 = entries.filter (keeps env attached ifindex)
  granted : env.Grants → (∀ e ∈ entries, ¬ keeps env attached ifindex e → e.Flat) → r.1 = .ok ()

def InScope (ifindex i : Int32) : Prop := ifindex = 0 ∨ i = ifindex

theorem InScope.not_other {ifindex i : Int32} (hi : InScope ifindex i) :
    ¬ (ifindex ≠ 0 ∧ i ≠ ifindex) := by
  rintro ⟨hzero, hother⟩
  exact hi.elim hzero hother

def CleanEnv.Tells (ifindex : Int32) : Prop :=
  ∀ i, InScope ifindex i → ∀ a, env.query i = .ok a → a = attached i

def InPlace (ifindex : Int32) (e : BpffsEntry) : Prop :=
  ∀ name files, e = .dir name files → ∀ i id, scanDispatch env.conv name = some (i, id) →
    InScope ifindex i → ∀ j, InScope ifindex j → attached j = some id → j = i

variable {env attached} {ifindex : Int32} {e : BpffsEntry} {entries : List BpffsEntry}
  {r : Except ℤ Unit × List BpffsEntry}

theorem keeps_dispatchName {i : Int32} {id : UInt32} {files : List Dirent} :
    keeps env attached ifindex (.dir (dispatchName i id) files) = decide
      ((ifindex ≠ 0 ∧ i ≠ ifindex) ∨ (id ≠ 0 ∧ attached i = some id ∧ (env.query i).isOk)) := by
  rw [keeps, scanDispatch_dispatchName]

theorem Cleaned.cons_of_keeps (h : Cleaned env attached ifindex entries r)
    (he : keeps env attached ifindex e = true) :
    Cleaned env attached ifindex (e :: entries) (r.1, e :: r.2) where
  kept e' he' hkeeps := by
    rcases List.mem_cons.mp he' with rfl | he'
    · exact List.mem_cons_self
    · exact List.mem_cons_of_mem _ (h.kept e' he' hkeeps)
  done hok := by rw [List.filter_cons_of_pos he, ← h.done hok]
  granted henv hflat := h.granted henv fun e he ↦ hflat e (List.mem_cons_of_mem _ he)

theorem Cleaned.cons_of_not (h : Cleaned env attached ifindex entries r)
    (he : ¬ keeps env attached ifindex e = true) :
    Cleaned env attached ifindex (e :: entries) r where
  kept e' he' hkeeps := by
    rcases List.mem_cons.mp he' with rfl | he'
    · exact absurd hkeeps he
    · exact h.kept e' he' hkeeps
  done hok := by rw [List.filter_cons_of_neg he, ← h.done hok]
  granted henv hflat := h.granted henv fun e he ↦ hflat e (List.mem_cons_of_mem _ he)

theorem Cleaned.of_error {err : ℤ} {left : List BpffsEntry}
    (hleft : ∀ e ∈ entries, keeps env attached ifindex e → e ∈ left)
    (hgrants : env.Grants → ∃ e ∈ entries, ¬ keeps env attached ifindex e ∧ ¬ e.Flat) :
    Cleaned env attached ifindex entries (.error err, left) where
  kept := hleft
  done hok := nomatch hok
  granted henv hflat := by
    obtain ⟨e, he, hnot, hdirs⟩ := hgrants henv
    exact absurd (hflat e he hnot) hdirs

namespace CleanEnv.Grants

variable {subdir : List UInt8} {files : List Dirent}

theorem removeFiles_eq (henv : env.Grants) (hfiles : ∀ dent ∈ files, dent.isDir = false) :
    removeFiles env subdir files = (.ok (), []) := by
  induction files with
  | nil => rfl
  | cons dent files ih =>
    obtain ⟨hdent, hfiles⟩ := List.forall_mem_cons.mp hfiles
    rw [removeFiles, hdent, henv.unlink]
    exact ih hfiles

theorem removePinDir_eq (henv : env.Grants) (hfiles : ∀ dent ∈ files, dent.isDir = false) :
    removePinDir env subdir files = .ok () := by
  rw [removePinDir, henv.opendir, henv.removeFiles_eq hfiles, henv.rmdir]
  rfl

end CleanEnv.Grants

theorem CleanEnv.stored_of_ok {i : Int32} {id progId : UInt32} (hi : env.query i = .ok (some id)) :
    env.stored i progId = id := by
  rw [CleanEnv.stored, hi]

theorem CleanEnv.stored_of_not {i : Int32} {progId : UInt32}
    (hi : ∀ id, env.query i ≠ .ok (some id)) : env.stored i progId = progId := by
  unfold CleanEnv.stored
  split
  · exact absurd ‹_› (hi _)
  · rfl

/-- An id that is left over from a query before is not taken for that of a dispatcher. -/
theorem stays_iff {name : List UInt8} {files : List Dirent} {i : Int32} {id progId : UInt32}
    (htells : env.Tells attached ifindex) (hscan : scanDispatch env.conv name = some (i, id))
    (hi : InScope ifindex i) (hplace : InPlace env attached ifindex (.dir name files))
    (hstale : progId = 0 ∨ ∃ j, InScope ifindex j ∧ env.query j = .ok (some progId)) :
    keeps env attached ifindex (.dir name files) = true ↔
      ¬ (env.stored i progId = 0 ∨ env.stored i progId ≠ id) := by
  simp only [keeps, hscan, decide_eq_true_eq, hi.not_other, false_or, not_or, not_not]
  by_cases hsome : ∃ id', env.query i = .ok (some id')
  · obtain ⟨id', hid'⟩ := hsome
    rw [CleanEnv.stored_of_ok hid', ← htells i hi _ hid', hid', Option.some_inj]
    exact ⟨fun ⟨hne, heq, _⟩ ↦ ⟨heq ▸ hne, heq⟩, fun ⟨hne, heq⟩ ↦ ⟨heq ▸ hne, heq, rfl⟩⟩
  · rw [CleanEnv.stored_of_not (not_exists.mp hsome)]
    refine iff_of_false ?_ ?_
    · rintro ⟨-, hattached, hok⟩
      cases hquery : env.query i with
      | error err =>
        rw [hquery] at hok
        cases hok
      | ok a => exact hsome ⟨id, by rw [hquery, htells i hi a hquery, hattached]⟩
    · rintro ⟨hne, rfl⟩
      rcases hstale with hzero | ⟨j, hj, hquery⟩
      · exact hne hzero
      · obtain rfl := hplace name files rfl i _ hscan hi j hj (htells j hj _ hquery).symm
        exact hsome ⟨_, hquery⟩

theorem cleanLoop_cleaned {progId : UInt32} (htells : env.Tells attached ifindex)
    (hplace : ∀ e ∈ entries, InPlace env attached ifindex e)
    (hstale : progId = 0 ∨ ∃ j, InScope ifindex j ∧ env.query j = .ok (some progId)) :
    Cleaned env attached ifindex entries (cleanLoop env ifindex progId entries) := by
  -- the id of an earlier query is carried along: none yet, or that of another interface
  induction entries generalizing progId with
  | nil => exact ⟨(fun e he ↦ nomatch he), (fun _ ↦ rfl), fun _ _ ↦ rfl⟩
  | cons e entries ih =>
    obtain ⟨hplace, hrest⟩ := List.forall_mem_cons.mp hplace
    cases e with
    | file name => exact (ih hrest hstale).cons_of_keeps rfl
    | dir name files =>
      unfold cleanLoop
      cases hscan : scanDispatch env.conv name with
      | none => exact (ih hrest hstale).cons_of_keeps (by rw [keeps, hscan])
      | some path =>
        obtain ⟨i, id⟩ := path
        dsimp only
        by_cases hscope : ifindex ≠ 0 ∧ i ≠ ifindex
        · rw [if_pos hscope]
          exact (ih hrest hstale).cons_of_keeps (by simp [keeps, hscan, hscope])
        · have hi : InScope ifindex i := by
            rw [not_and_or, not_not, not_not] at hscope
            exact hscope
          have hstays := stays_iff htells hscan hi hplace hstale
          have hnext : env.stored i progId = 0 ∨
              ∃ j, InScope ifindex j ∧ env.query j = .ok (some (env.stored i progId)) := by
            by_cases hsome : ∃ id', env.query i = .ok (some id')
            · obtain ⟨id', hid'⟩ := hsome
              exact Or.inr ⟨i, hi, by rw [CleanEnv.stored_of_ok hid', hid']⟩
            · rwa [CleanEnv.stored_of_not (not_exists.mp hsome)]
          rw [if_neg hscope]
          split_ifs with hgone
          · have hnot : ¬ keeps env attached ifindex (.dir name files) = true :=
              fun hkeeps ↦ hstays.mp hkeeps hgone
            cases hremove : removePinDir env name files with
            | error err =>
              refine .of_error (fun e he hkeeps ↦ ?_) fun henv ↦ ?_
              · rcases List.mem_cons.mp he with rfl | he
                · exact absurd hkeeps hnot
                · exact List.mem_cons_of_mem _ he
              · refine ⟨_, List.mem_cons_self, hnot, fun hflat ↦ ?_⟩
                cases hremove.symm.trans (henv.removePinDir_eq hflat)
            | ok => exact (ih hrest hnext).cons_of_not hnot
          · exact (ih hrest hnext).cons_of_keeps (hstays.mpr hgone)

theorem cleanReferences_cleaned (htells : env.Tells attached ifindex)
    (hplace : ∀ e ∈ entries, InPlace env attached ifindex e) :
    Cleaned env attached ifindex entries (cleanReferences env ifindex entries) := by
  unfold cleanReferences
  cases hlock : env.acquire with
  | error err =>
    refine ⟨fun e he _ ↦ he, (fun hok ↦ nomatch hok), fun henv ↦ ?_⟩
    cases hlock.symm.trans henv.acquire
  | ok => exact cleanLoop_cleaned htells hplace (Or.inl rfl)

def wrapping : Conversion where
  toInt32 := Int32.ofInt
  toUInt32 n := (Int32.ofInt n).toUInt32
  int32 n := Int32.ofInt_toInt n
  uint32 n := by
    rw [Int32.ofInt_eq_ofNat, Int32.toUInt32_ofNat', UInt32.ofNat_toNat]
  wraps n := congrArg Int32.toUInt32 (Int32.ofInt_toInt n)

def removing (query : Int32 → Except ℤ (Option UInt32)) : CleanEnv :=
  ⟨wrapping, .ok (), query, fun _ ↦ .ok (), fun _ _ ↦ .ok (), fun _ ↦ .ok ()⟩

theorem grants_removing (query : Int32 → Except ℤ (Option UInt32)) : (removing query).Grants :=
  ⟨rfl, fun _ ↦ rfl, fun _ _ ↦ rfl, fun _ ↦ rfl⟩

end Cleaning

section Hosts

def PinFile.name : PinFile → List UInt8
  | .link slot => text "prog" ++ (printNat slot ++ text "-link")
  | .prog slot => text "prog" ++ (printNat slot ++ text "-prog")

def Host.listing (h : Host) (ifindex : Int32) (ids : List UInt32) : List BpffsEntry :=
  ids.filterMap fun id ↦ (h.pins id).map fun dir ↦
    .dir (dispatchName ifindex id) (dir.map fun file ↦ ⟨file.1.name, false⟩)

def Host.cleaned (h : Host) : Host :=
  { h with pins := fun id ↦ if h.attachedId = some id then h.pins id else none }

variable {order : ByteOrder} {K : Kernel} {h : Host} {env : CleanEnv} {ifindex : Int32}

theorem Host.flat_of_mem_listing {ids : List UInt32} {e : BpffsEntry}
    (he : e ∈ h.listing ifindex ids) : e.Flat := by
  obtain ⟨id, -, hdir⟩ := List.mem_filterMap.mp he
  obtain ⟨dir, -, rfl⟩ := Option.map_eq_some_iff.mp hdir
  intro dent hdent
  obtain ⟨file, -, rfl⟩ := List.mem_map.mp hdent
  rfl

theorem Host.filter_listing (hquery : env.query ifindex = .ok h.attachedId)
    (hid : h.attachedId ≠ some 0) (ids : List UInt32) :
    (h.listing ifindex ids).filter (keeps env (fun _ ↦ h.attachedId) ifindex) =
      h.cleaned.listing ifindex ids := by
  unfold Host.listing
  rw [List.filter_filterMap]
  refine List.filterMap_congr fun id _ ↦ ?_
  change _ = Option.map _ (if h.attachedId = some id then h.pins id else none)
  cases h.pins id with
  | none => simp
  | some dir =>
    have hkeeps : ((ifindex ≠ 0 ∧ ifindex ≠ ifindex) ∨
        (id ≠ 0 ∧ h.attachedId = some id ∧ (env.query ifindex).isOk)) ↔ h.attachedId = some id := by
      rw [hquery]
      refine ⟨fun hkeep ↦ (hkeep.resolve_left fun hother ↦ hother.2 rfl).2.1, fun hsome ↦ ?_⟩
      exact Or.inr ⟨fun hzero ↦ hid (hzero ▸ hsome), hsome, rfl⟩
    rw [Option.map_some, Option.filter_some, keeps_dispatchName]
    by_cases hsome : h.attachedId = some id
    · rw [if_pos (decide_eq_true (hkeeps.mpr hsome)), if_pos hsome]
      rfl
    · rw [if_neg fun hp ↦ hsome (hkeeps.mp (of_decide_eq_true hp)), if_neg hsome]
      rfl

/-- What `libxdp_clean_references` does to an interface that it is asked to clean. -/
theorem Host.cleanReferences_listing (henv : env.Grants) (hifindex : ifindex ≠ 0)
    (hquery : env.query ifindex = .ok h.attachedId) (hid : h.attachedId ≠ some 0)
    (ids : List UInt32) :
    cleanReferences env ifindex (h.listing ifindex ids) =
      (.ok (), h.cleaned.listing ifindex ids) := by
  have htells : env.Tells (fun _ ↦ h.attachedId) ifindex := by
    intro i hi a ha
    rw [hi.resolve_left hifindex, hquery] at ha
    exact (Except.ok.inj ha).symm
  have hplace : ∀ e ∈ h.listing ifindex ids, InPlace env (fun _ ↦ h.attachedId) ifindex e :=
    fun _ _ _ _ _ _ _ _ hi _ hj _ ↦ (hj.resolve_left hifindex).trans (hi.resolve_left hifindex).symm
  have hcleaned := cleanReferences_cleaned htells hplace
  have hok := hcleaned.granted henv fun e he _ ↦ Host.flat_of_mem_listing he
  rw [← Host.filter_listing hquery hid ids]
  exact Prod.ext hok (hcleaned.done hok)

theorem Host.run_cleaned {m : Type → Type} [Monad m] (code : UInt32 → m UInt32) :
    h.cleaned.run order code = h.run order code := by
  have hattached : h.cleaned.attachedId = h.attachedId := rfl
  rw [Host.run, Host.run, hattached]
  cases hid : h.attachedId with
  | none => rfl
  | some id =>
    have hpins : h.cleaned.pins id = h.pins id := if_pos hid
    dsimp only
    rw [hpins]
    rfl

theorem Host.Ok.cleaned (hh : h.Ok order) : h.cleaned.Ok order where
  carries := hh.carries
  agrees id dir hdir := hh.agrees id dir (Option.ite_none_right_eq_some.mp hdir).2
  attached id d hid hd := (if_pos hid).trans (hh.attached id d hid hd)
  seen := hh.seen

section Runs

variable {κ : Type} [DecidableEq κ] {turns : List (Turn κ Event (Option (UInt32 × XdpAttachMode)))}
  {w : Host × (κ → Client)}

/-- Whatever calls were cut short before, `libxdp_clean_references` leaves the directory of the
dispatcher that is attached, whole, and no other, and no packet is treated in another way.
Where no call is under way the protocol may go on from there. -/
theorem clean_recovers {attached : Option (UInt32 × XdpAttachMode)} (hK : K.replaces = true)
    (hrun : Trace (Interleaved (Step order K) Foreign) turns (freshHost attached, fun _ ↦ .idle) w)
    (henv : env.Grants) (hifindex : ifindex ≠ 0)
    (hquery : env.query ifindex = .ok w.1.attachedId) (hid : w.1.attachedId ≠ some 0)
    (ids : List UInt32) :
    cleanReferences env ifindex (w.1.listing ifindex ids) =
      (.ok (), w.1.cleaned.listing ifindex ids) ∧
    (∀ id, w.1.cleaned.pins id =
      if w.1.attachedId = some id then (w.1.dispatchers id).map Dispatcher.files else none) ∧
    (∀ (m : Type → Type) [Monad m] (code : UInt32 → m UInt32),
      w.1.cleaned.run order code = w.1.run order code) ∧
    ((∀ k c, w.2 k ≠ .busy c) → (protocolOutline order).Holds (w.1.cleaned, w.2)) := by
  have houtline : (protocolOutline order).Holds w :=
    (protocolOutline_stable hK).run hrun (protocolOutline_fresh attached)
  have hh : w.1.Ok order := houtline.shared
  refine ⟨Host.cleanReferences_listing henv hifindex hquery hid ids, fun id ↦ ?_,
    fun m _ code ↦ Host.run_cleaned code, fun hidle ↦ ⟨hh.cleaned, fun k ↦ ?_, houtline.between⟩⟩
  · change (if w.1.attachedId = some id then w.1.pins id else none) = _
    split_ifs with hattached
    · exact hh.pins_attached hattached
    · rfl
  · cases hk : w.2 k with
    | busy c => exact absurd hk (hidle k c)
    | _ => trivial

/-- A process has ended while it pinned a dispatcher, after another one had attached its own. -/
theorem clean_recovers_left_behind : ∃ (h : Host) (files : List Dirent),
    h.attachedId = some 1 ∧
    h.listing 2 [1, 2] = [.dir (dispatchName 2 1) files, .dir (dispatchName 2 2) []] ∧
    cleanReferences (removing fun _ ↦ .ok h.attachedId) 2 (h.listing 2 [1, 2]) =
      (.ok (), [.dir (dispatchName 2 1) files]) := by
  obtain ⟨turns, g₁, -, hfirst, -⟩ := exists_overtaken
  have hnone : (freshHost none).Shows .little none := ⟨rfl, fun _ hmp ↦ nomatch hmp⟩
  obtain ⟨g, hgen⟩ := attachable_earlyProgram.exists_generate grants_passEnv hnone
  have hdies : Trace (Step .little passKernel) [.moved, .died] (firstHost g₁, .busy
      ((Call.start (.attachMulti [earlyProgram 8 (by decide)] .skb false)).goto (.generate none)))
      (((firstHost g₁).load 2 (g.dispatcher .little)).setPins 2 (some []), .dead) := by
    refine .cons (.generated rfl hgen (fresh_firstHost g₁ 2 (by decide) (by decide))) ?_
    refine .cons (.diedPinning rfl fun d _ dir hdir ↦ ?_) (.nil _)
    obtain rfl := Option.some_inj.mp hdir
    exact fun _ _ hfile ↦ nomatch hfile
  have hrun := Trace.append_iff.mpr ⟨_, hfirst, hdies.solo true (Function.update_self ..) rfl⟩
  have hifindex : (2 : Int32) ≠ 0 := by decide
  have hid : (some 1 : Option UInt32) ≠ some 0 := by decide
  have hclean := clean_recovers rfl hrun (grants_removing fun _ ↦ .ok (some 1)) hifindex rfl hid [1, 2]
  exact ⟨((firstHost g₁).load 2 (g.dispatcher .little)).setPins 2 (some []), _, rfl, rfl, hclean.1⟩

end Runs

section Race

variable {progs : List XdpProgram} {mode : XdpAttachMode} {skip : Bool} {genv : GenerateEnv}
  {oldMp : Option XdpMultiprog} {new : UInt32} {d : Dispatcher}

theorem Host.pins_committed_cleaned (hnew : h.attachedId ≠ some new) (mode : XdpAttachMode) :
    ((h.prepared new d).cleaned.committed oldMp new mode).pins new = none := by
  have hpins : (h.prepared new d).cleaned.pins new = none := if_neg hnew
  cases oldMp with
  | none => exact hpins
  | some mp =>
    change Function.update (h.prepared new d).cleaned.pins mp.mainId none new = none
    rw [Function.update_apply]
    split_ifs
    · rfl
    · exact hpins

/-- A dispatcher whose directory has been removed before it was attached passes every packet. -/
theorem Host.run_committed_cleaned {m : Type → Type} [Monad m] [LawfulMonad m]
    {carried : List XdpProgram} (hd : d.Carries order carried) (hnew : h.attachedId ≠ some new)
    (mode : XdpAttachMode) (code : UInt32 → m UInt32) :
    ((h.prepared new d).cleaned.committed oldMp new mode).run order code = pure xdpPass := by
  have hid : ((h.prepared new d).cleaned.committed oldMp new mode).attachedId = some new := by
    cases oldMp <;> rfl
  have hdispatcher :
      ((h.prepared new d).cleaned.committed oldMp new mode).dispatchers new = some d := by
    cases oldMp <;> exact Host.dispatchers_load_self
  rw [Host.run, hid]
  dsimp only
  rw [hdispatcher, Host.pins_committed_cleaned hnew]
  exact hd.run_unpinned

/-- A call that attaches programs, up to where its dispatcher is pinned. -/
theorem Attachable.prepared_run (ha : Attachable order K h progs mode skip) (henv : genv.Grants)
    (hnew : new ≠ 0 ∧ h.dispatchers new = none ∧ ¬ h.seen new) :
    ∃ es oldMp g c, (∀ e ∈ es, e = Event.moved) ∧ h.Shows order oldMp ∧
      generate genv progs oldMp false = .ok g ∧ c.pc = .attach oldMp (some new) mode ∧
      Trace (Step order K) (.called (.attachMulti progs mode skip) :: es) (h, .idle)
        (h.prepared new (g.dispatcher order), .busy c) := by
  obtain ⟨es, oldMp, hes, hshows, hbegin⟩ := ha.begin_run
  obtain ⟨g, hgen⟩ := ha.exists_generate henv hshows
  have hprepare : Trace (Step order K) [.moved, .moved] _ _ :=
    prepare_run (c := (Call.start (.attachMulti progs mode skip)).goto (.generate oldMp)) rfl hgen
      hnew
  have hrun := Trace.append_iff.mpr ⟨_, hbegin, hprepare⟩
  refine ⟨es ++ [Event.moved, Event.moved], oldMp, g, _, fun e he ↦ ?_, hshows, hgen, rfl,
    .cons (.called ha.software) hrun⟩
  refine (List.mem_append.mp he).elim (hes e) fun he ↦ ?_
  simpa using he

/-- The lock is not held from the pinning of a dispatcher to its attachment. Where
`libxdp_clean_references` runs in between, a call that attaches programs returns 0, but none of
them, and none of those attached before, is run on any packet. -/
theorem cleaning_loses_programs (ha : Attachable order K h progs mode skip) (henv : genv.Grants)
    (hnew : new ≠ 0 ∧ h.dispatchers new = none ∧ ¬ h.seen new) :
    ∃ es es' h₁ c h₂, (∀ e ∈ es ++ es', e = Event.moved) ∧
      Trace (Step order K) (.called (.attachMulti progs mode skip) :: es) (h, .idle) (h₁, .busy c) ∧
      (∀ (env : CleanEnv) (ifindex : Int32) (ids : List UInt32), env.Grants → ifindex ≠ 0 →
        env.query ifindex = .ok h₁.attachedId →
        cleanReferences env ifindex (h₁.listing ifindex ids) =
          (.ok (), h₁.cleaned.listing ifindex ids)) ∧
      Trace (Step order K) (es' ++ [.returned 0]) (h₁.cleaned, .busy c) (h₂, .idle) ∧
      ∀ (m : Type → Type) [Monad m] [LawfulMonad m] (code : UInt32 → m UInt32),
        h₂.run order code = pure xdpPass := by
  obtain ⟨es, oldMp, g, c, hes, hshows, hgen, hpc, hrun⟩ := ha.prepared_run henv hnew
  obtain ⟨es', c', hes', hcommit, hdone, -⟩ := commit_run order (K := K)
    (h := (h.prepared new (g.dispatcher order)).cleaned) hpc hshows.attached fun mp hmp ↦
      ⟨(hshows.dispatcher mp hmp).1, (hshows.dispatcher mp hmp).2.1, ha.attachMode_eq hshows mp hmp⟩
  have hreturn := Trace.append_iff.mpr ⟨_, hcommit, .cons (.returned hdone) (.nil _)⟩
  refine ⟨es, es', _, c, _, fun e he ↦ ?_, hrun, fun cenv ifindex ids hgrants hifindex hquery ↦ ?_,
    hreturn, fun m _ _ code ↦ ?_⟩
  · exact (List.mem_append.mp he).elim (hes e) (hes' e)
  · refine Host.cleanReferences_listing hgrants hifindex hquery (fun hzero ↦ ?_) ids
    obtain ⟨a, hattached, hid⟩ := Option.map_eq_some_iff.mp hzero
    exact (ha.attached a hattached).1 hid
  · exact Host.run_committed_cleaned (generate_carries order hgen)
      (fun hid ↦ hnew.2.2 (ha.host.seen new hid)) _ code

theorem cleaning_loses_programs_pass : ∃ es es' h₁ c h₂,
    Trace (Step .little passKernel) (.called (.attachMulti [passProgram] .skb false) :: es)
      (freshHost none, .idle) (h₁, .busy c) ∧
    Trace (Step .little passKernel) (es' ++ [.returned 0]) (h₁.cleaned, .busy c) (h₂, .idle) ∧
    ∀ code : UInt32 → Id UInt32, h₂.run .little code = pure xdpPass := by
  obtain ⟨es, es', h₁, c, h₂, -, hrun, -, hrun', hpass⟩ :=
    cleaning_loses_programs attachable_passProgram grants_passEnv fresh_passKernel
  exact ⟨es, es', h₁, c, h₂, hrun, hrun', hpass Id⟩

end Race

end Hosts

end KernelBypass.Libxdp
