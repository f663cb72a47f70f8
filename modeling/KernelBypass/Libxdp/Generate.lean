import KernelBypass.Foundation.Collect
import KernelBypass.Libxdp.ConfigMap
import KernelBypass.Libxdp.RunOrder

namespace KernelBypass.Libxdp

open Common.CommonParams Common.MapFiles Foundation Bitmap Collect Sorting

structure XdpMultiprog where
  mainId : UInt32
  version : UInt32
  isLegacy : Bool
  progs : List XdpProgram
  numLinks : ℕ
  attachMode : XdpAttachMode
  linked : isLegacy = false → numLinks = progs.length

/-- The C library, the object file of the dispatcher and the kernel, as they answer one
call of `xdp_multiprog__generate`: the opening of the object, the setting of its map, the
loading of the dispatcher, the two queries before each program, and for each program the
target it is loaded for, its loading, its link and the link without a target. -/
structure GenerateEnv where
  qsort : Sorter cmpXdpPrograms
  kernelHasFragsSupport : Bool
  openDispatcher : Except ℤ Unit
  setInitialValue : Except ℤ Unit
  loadDispatcher : Except ℤ Unit
  checkKernCompat : Except ℤ Unit
  findProgBtfId : Except ℤ Unit
  setAttachTarget : Except ℤ Unit
  load : XdpProgram → Except ℤ BpfProgInfo
  linkCreate : BpfProgInfo → Except ℤ Unit
  rawTracepointOpen : BpfProgInfo → Except ℤ Unit

structure Generated where
  config : DispatcherConfig
  progs : List XdpProgram
  linked : List BpfProgInfo

structure Entry where
  id : UInt32
  runPrio : UInt32
  chainCallActions : UInt32
  isFrags : Bool
  deriving DecidableEq

def XdpProgram.entry (prog : XdpProgram) : Entry :=
  ⟨prog.progId, prog.runPrio, prog.chainCallActions, prog.xdpFragsSupport⟩

section Populate

def tenWords (l : List UInt32) : List.Vector UInt32 maxDispatcherActions :=
  .ofFn fun i ↦ l.getD i 0

def programFlags (prog : XdpProgram) : UInt32 :=
  if prog.xdpFragsSupport then bpfFXdpHasFrags else 0

def populate (kernelFragsSupport : Bool) (progs : List XdpProgram) : DispatcherConfig where
  magic := xdpDispatcherMagic
  dispatcherVersion := xdpDispatcherVersion.toUInt8
  numProgsEnabled := progs.length.toUInt8
  isXdpFrags := if kernelFragsSupport ∧ progs.all XdpProgram.xdpFragsSupport then 1 else 0
  chainCallActions := tenWords (progs.map fun prog ↦
    prog.chainCallActions ||| 1 <<< xdpDispatcherRetval)
  runPrios := tenWords (progs.map XdpProgram.runPrio)
  programFlags := tenWords (progs.map programFlags)

end Populate

section LinkProg

variable (env : GenerateEnv)

def loadComponent (prog : XdpProgram) : Except ℤ XdpProgram := do
  env.setAttachTarget
  (xdpProgramLoad prog (env.load prog)).mapError fun err ↦
    if err = -e2big then -eopnotsupp else err

def createLink (info : BpfProgInfo) (wasLoaded : Bool) : Except ℤ Unit :=
  let failed (err : ℤ) : Except ℤ Unit := .error (if err = -eperm then -eopnotsupp else err)
  match env.linkCreate info with
  | .ok () => .ok ()
  | .error err =>
    if err = -einval then
      if ¬ wasLoaded then .error (-eopnotsupp)
      else
        match env.rawTracepointOpen info with
        | .ok () => .ok ()
        | .error err => failed err
    else failed err

def ensureLoaded (prog : XdpProgram) : Except ℤ XdpProgram :=
  if prog.progFd.isNone then loadComponent env prog else .ok prog

def loadedBy (prog : XdpProgram) : XdpProgram := (ensureLoaded env prog).toOption.getD prog

def linkProg (prog : XdpProgram) : Except ℤ (XdpProgram × BpfProgInfo) := do
  env.checkKernCompat
  failIf prog.btf.isNone (-eopnotsupp)
  env.findProgBtfId
  let loaded ← ensureLoaded env prog
  let info ← loaded.progFd.elim (.error (-einval)) .ok
  let _ ← fromFd info
  createLink env info prog.progFd.isNone
  return (loaded, info)

end LinkProg

section Generate

variable (env : GenerateEnv)

/-- The entries of `new_progs`; those that are never set are null. -/
def newProgs (progs : List XdpProgram) (oldMp : Option XdpMultiprog) (removeProgs : Bool) :
    Except Failure (List (Option XdpProgram)) :=
  match oldMp with
  | none => .ok (progs.map some)
  | some oldMp =>
    if removeProgs then
      let kept := oldMp.progs.filter fun prog ↦ ∀ q ∈ progs, q.progId ≠ prog.progId
      let numNewProgs := oldMp.numLinks - progs.length
      if numNewProgs < kept.length then .error (.errno (-einval))
      else .ok (kept.map some ++ List.replicate (numNewProgs - kept.length) none)
    else .ok ((oldMp.progs ++ progs).map some)

/-- Whether `num_new_progs` is beyond `MAX_DISPATCHER_ACTIONS`, as a difference of unsigned
numbers also is where it would be negative. -/
def tooMany (numLinks numProgs : ℕ) (removeProgs : Bool) : Prop :=
  if removeProgs then numLinks < numProgs ∨ maxDispatcherActions < numLinks - numProgs
  else maxDispatcherActions < numLinks + numProgs

instance (numLinks numProgs : ℕ) (removeProgs : Bool) :
    Decidable (tooMany numLinks numProgs removeProgs) := by
  unfold tooMany
  infer_instance

/-- `xdp_multiprog__generate`. To sort a list with a null pointer or to read one is an
access to memory that is not there. -/
def generate (progs : List XdpProgram) (oldMp : Option XdpMultiprog) (removeProgs : Bool) :
    Except Failure Generated := do
  failIf (progs = [] ∨ (oldMp.isNone ∧ removeProgs)) (.errno (-einval))
  failIf (tooMany ((oldMp.map XdpMultiprog.numLinks).getD 0) progs.length removeProgs)
    (.errno (-e2big))
  failIf (oldMp.any XdpMultiprog.isLegacy) (.errno (-ebusy))
  failIf (oldMp.any (·.version < xdpDispatcherVersion)) (.errno (-ebusy))
  let entries ← newProgs progs oldMp removeProgs
  failIf (1 < entries.length ∧ entries.any Option.isNone) .fault
  let sorted := if 1 < entries.length then env.qsort.sort entries.reduceOption
    else entries.reduceOption
  env.openDispatcher.mapError .errno
  failIf (entries.any Option.isNone) .fault
  env.setInitialValue.mapError .errno
  env.loadDispatcher.mapError fun _ ↦ .errno (-eopnotsupp)
  let linked ← (sorted.mapM (linkProg env)).mapError .errno
  return ⟨populate env.kernelHasFragsSupport sorted, linked.map Prod.fst, linked.map Prod.snd⟩

end Generate

section Spec

variable {env : GenerateEnv} {progs : List XdpProgram} {oldMp : Option XdpMultiprog}
  {removeProgs : Bool} {g : Generated}

structure Links (env : GenerateEnv) (prog : XdpProgram) (linked : XdpProgram × BpfProgInfo) :
    Prop where
  loadedBy_eq : loadedBy env prog = linked.1
  loaded : linked.1.progFd = some linked.2
  object : prog.progFd = none → prog.bpfProg.isSome
  kept : ∀ info, prog.progFd = some info → linked.2 = info
  name : linked.1.progName = prog.progName
  prio : linked.1.runPrio = prog.runPrio
  actions : linked.1.chainCallActions = prog.chainCallActions
  frags : linked.1.xdpFragsSupport = prog.xdpFragsSupport
  readable : ∃ q, fromFd linked.2 = .ok q

theorem XdpProgram.xdpFragsSupport_of_loaded {prog : XdpProgram} (h : prog.progFd.isSome) :
    prog.xdpFragsSupport = prog.isFrags := by
  obtain ⟨info, hfd⟩ := Option.isSome_iff_exists.mp h
  rw [xdpFragsSupport, hfd]
  cases prog.bpfProg <;> rfl

theorem loadComponent_eq_ok {prog loaded : XdpProgram} (h : loadComponent env prog = .ok loaded) :
    prog.progFd = none ∧ prog.bpfProg.isSome ∧ ∃ info, loaded = { prog with
      progFd := some info, btf := prog.btf <|> info.btf, isFrags := prog.xdpFragsSupport } := by
  simp only [loadComponent, bind_eq_ok_iff, mapError_eq_ok_iff] at h
  obtain ⟨_, -, hload⟩ := h
  unfold xdpProgramLoad at hload
  split at hload
  · cases hload
  · cases hload
  · rename_i hfd hobj
    cases hanswer : env.load prog with
    | error err =>
      rw [hanswer] at hload
      cases hload
    | ok info =>
      rw [hanswer] at hload
      cases hload
      exact ⟨hfd, by rw [hobj]; rfl, info, rfl⟩

theorem ensureLoaded_eq_ok {prog loaded : XdpProgram} (h : ensureLoaded env prog = .ok loaded) :
    loaded = prog ∨ prog.progFd = none ∧ prog.bpfProg.isSome ∧ ∃ info, loaded = { prog with
      progFd := some info, btf := prog.btf <|> info.btf, isFrags := prog.xdpFragsSupport } := by
  unfold ensureLoaded at h
  split_ifs at h
  · exact Or.inr (loadComponent_eq_ok h)
  · exact Or.inl (Except.ok.inj h).symm

theorem linkProg_eq_ok {prog : XdpProgram} {linked : XdpProgram × BpfProgInfo}
    (h : linkProg env prog = .ok linked) : Links env prog linked := by
  simp only [linkProg, bind_eq_ok_iff] at h
  obtain ⟨_, -, _, -, _, -, loaded, hload, info, hinfo, q, hq, _, -, hret⟩ := h
  cases hret
  have hfd : loaded.progFd = some info := by
    cases hfd : loaded.progFd with
    | none =>
      rw [hfd] at hinfo
      cases hinfo
    | some info' =>
      rw [hfd] at hinfo
      cases hinfo
      rfl
  have hby : loadedBy env prog = loaded := by
    rw [loadedBy, hload]
    rfl
  obtain rfl | ⟨hnone, hobj, info', rfl⟩ := ensureLoaded_eq_ok hload
  · refine ⟨hby, hfd, fun h ↦ ?_, fun _ h ↦ Option.some_inj.mp (hfd.symm.trans h), rfl, rfl, rfl,
      rfl, q, hq⟩
    cases hfd.symm.trans h
  · refine ⟨hby, hfd, fun _ ↦ hobj, fun _ h ↦ ?_, rfl, rfl, rfl, ?_, q, hq⟩
    · cases hnone.symm.trans h
    · exact XdpProgram.xdpFragsSupport_of_loaded rfl

def selected (progs : List XdpProgram) (oldMp : Option XdpMultiprog) (removeProgs : Bool) :
    List XdpProgram :=
  match oldMp with
  | none => progs
  | some oldMp =>
    if removeProgs then oldMp.progs.filter fun prog ↦ ∀ q ∈ progs, q.progId ≠ prog.progId
    else oldMp.progs ++ progs

theorem newProgs_eq_ok {entries : List (Option XdpProgram)}
    (h : newProgs progs oldMp removeProgs = .ok entries) (hall : ¬ entries.any Option.isNone) :
    entries = (selected progs oldMp removeProgs).map some := by
  cases oldMp with
  | none => exact (Except.ok.inj h).symm
  | some oldMp =>
    unfold newProgs at h
    unfold selected
    dsimp only at h ⊢
    split_ifs at h ⊢ with hremove hmany
    · have hnone : oldMp.numLinks - progs.length -
          (oldMp.progs.filter fun prog ↦ ∀ q ∈ progs, q.progId ≠ prog.progId).length = 0 := by
        by_contra hne
        apply hall
        rw [← Except.ok.inj h, List.any_append, List.any_replicate, if_neg hne]
        simp
      rw [← Except.ok.inj h, hnone, List.replicate_zero, List.append_nil]
    · exact (Except.ok.inj h).symm

/-- A list that is not sorted has at most one entry. -/
theorem sort_map_some (S : Sorter cmpXdpPrograms) (l : List XdpProgram) :
    (if 1 < (l.map some).length then S.sort (l.map some).reduceOption
      else (l.map some).reduceOption) = S.sort l := by
  have hsome : (l.map some).reduceOption = l := (List.filterMap_map ..).trans List.filterMap_some
  rw [List.length_map, hsome]
  split_ifs with hlen
  · rfl
  · exact (S.sort_of_length_le_one (not_lt.mp hlen)).symm

theorem generate_eq_ok (h : generate env progs oldMp removeProgs = .ok g) :
    ∃ linked, List.Forall₂ (Links env) (env.qsort.sort (selected progs oldMp removeProgs)) linked ∧
      g = ⟨populate env.kernelHasFragsSupport (env.qsort.sort (selected progs oldMp removeProgs)),
        linked.map Prod.fst, linked.map Prod.snd⟩ := by
  simp only [generate, bind_eq_ok_iff, failIf_eq_ok_iff, mapError_eq_ok_iff, mapM_eq_ok_iff] at h
  obtain ⟨_, -, _, -, _, -, _, -, entries, hentries, _, -, _, -, _, hall, _, -, _, -, linked,
    hlinked, hret⟩ := h
  rw [newProgs_eq_ok hentries hall, sort_map_some] at hlinked hret
  exact ⟨linked, hlinked.imp fun _ _ ↦ linkProg_eq_ok, (Except.ok.inj hret).symm⟩

theorem generate_not_legacy (h : generate env progs oldMp removeProgs = .ok g) :
    ∀ mp ∈ oldMp, mp.isLegacy = false := by
  simp only [generate, bind_eq_ok_iff, failIf_eq_ok_iff, mapError_eq_ok_iff] at h
  obtain ⟨_, -, _, -, _, hlegacy, -⟩ := h
  rintro mp ⟨⟩
  simpa using hlegacy

/-- Nothing is removed where nothing is. -/
theorem removeProgs_of_generate_none (h : generate env progs none removeProgs = .ok g) :
    removeProgs = false := by
  simp only [generate, bind_eq_ok_iff, failIf_eq_ok_iff] at h
  obtain ⟨_, hargs, -⟩ := h
  simpa using (not_or.mp hargs).2

/-- As many programs are removed as are asked for. -/
theorem length_selected_of_remove {mp : XdpMultiprog} {entries : List (Option XdpProgram)}
    (h : newProgs progs (some mp) true = .ok entries) (hall : ¬ entries.any Option.isNone) :
    (selected progs (some mp) true).length = mp.numLinks - progs.length := by
  have hsome := congrArg List.length (newProgs_eq_ok h hall)
  unfold newProgs at h
  dsimp only at h
  rw [if_pos rfl] at h
  split_ifs at h with hmany
  rw [← Except.ok.inj h, List.length_map, List.length_append, List.length_map,
    List.length_replicate] at hsome
  omega

theorem generate_length (h : generate env progs oldMp removeProgs = .ok g) :
    (selected progs oldMp removeProgs).length ≤ maxDispatcherActions ∧
      ∀ mp, oldMp = some mp → removeProgs →
        (selected progs oldMp removeProgs).length + progs.length = mp.progs.length := by
  have hargs : oldMp = none → removeProgs = false := by
    rintro rfl
    exact removeProgs_of_generate_none h
  simp only [generate, bind_eq_ok_iff, failIf_eq_ok_iff, mapError_eq_ok_iff] at h
  obtain ⟨_, -, _, hmany, _, hlegacy, _, -, entries, hentries, _, -, _, -, _, hall, -⟩ := h
  cases oldMp with
  | none =>
    obtain rfl := hargs rfl
    have hle : ¬ maxDispatcherActions < 0 + progs.length := hmany
    exact ⟨by simpa [selected] using hle, fun mp hmp ↦ by cases hmp⟩
  | some mp =>
    have hlinks : mp.numLinks = mp.progs.length := mp.linked (by simpa using hlegacy)
    cases removeProgs with
    | false =>
      have hle : ¬ maxDispatcherActions < mp.numLinks + progs.length := hmany
      rw [hlinks] at hle
      exact ⟨by simpa [selected] using hle, fun mp hmp hfalse ↦ by cases hfalse⟩
    | true =>
      obtain ⟨hle, hten⟩ : ¬ mp.numLinks < progs.length ∧
        ¬ maxDispatcherActions < mp.numLinks - progs.length := not_or.mp hmany
      rw [length_selected_of_remove hentries hall]
      refine ⟨not_lt.mp hten, fun mp' hmp _ ↦ ?_⟩
      obtain rfl := Option.some_inj.mp hmp
      omega

end Spec

section Granted

variable {env : GenerateEnv} {progs : List XdpProgram} {oldMp : Option XdpMultiprog}

structure BpfProgInfo.Described (info : BpfProgInfo) : Prop where
  btf : info.btf.isSome
  fromFd : ∃ q, fromFd info = .ok q

/-- A kernel that grants whatever it is asked. -/
structure GenerateEnv.Grants (env : GenerateEnv) : Prop where
  openDispatcher : env.openDispatcher = .ok ()
  setInitialValue : env.setInitialValue = .ok ()
  loadDispatcher : env.loadDispatcher = .ok ()
  checkKernCompat : env.checkKernCompat = .ok ()
  findProgBtfId : env.findProgBtfId = .ok ()
  setAttachTarget : env.setAttachTarget = .ok ()
  load : ∀ prog, ∃ info, env.load prog = .ok info ∧ info.Described
  linkCreate : ∀ info, env.linkCreate info = .ok ()

structure Linkable (prog : XdpProgram) : Prop where
  btf : prog.btf.isSome
  object : prog.progFd = none → prog.bpfProg.isSome
  loaded : ∀ info, prog.progFd = some info → info.Described

theorem GenerateEnv.Grants.exists_ensureLoaded (henv : env.Grants) {prog : XdpProgram}
    (hprog : Linkable prog) :
    ∃ loaded info, ensureLoaded env prog = .ok loaded ∧ loaded.progFd = some info ∧
      info.Described := by
  cases hfd : prog.progFd with
  | some info =>
    refine ⟨prog, info, ?_, hfd, hprog.loaded info hfd⟩
    rw [ensureLoaded, hfd]
    rfl
  | none =>
    obtain ⟨bpfProg, hobj⟩ := Option.isSome_iff_exists.mp (hprog.object hfd)
    obtain ⟨info, hload, hinfo⟩ := henv.load prog
    refine ⟨{ prog with
      progFd := some info, btf := prog.btf <|> info.btf, isFrags := prog.xdpFragsSupport },
      info, ?_, rfl, hinfo⟩
    rw [ensureLoaded, hfd, Option.isNone_none, if_pos rfl, loadComponent,
      henv.setAttachTarget, xdpProgramLoad, hfd, hobj, hload]
    rfl

theorem GenerateEnv.Grants.exists_linkProg (henv : env.Grants) {prog : XdpProgram}
    (hprog : Linkable prog) : ∃ linked, linkProg env prog = .ok linked := by
  obtain ⟨loaded, info, hload, hfd, -, q, hq⟩ := henv.exists_ensureLoaded hprog
  have hlink : createLink env info prog.progFd.isNone = .ok () := by
    rw [createLink, henv.linkCreate]
  have hbtf : ¬ prog.btf.isNone :=
    mt Option.isNone_iff_eq_none.mp (Option.isSome_iff_ne_none.mp hprog.btf)
  refine ⟨(loaded, info), ?_⟩
  simp only [linkProg, bind_eq_ok_iff, failIf_eq_ok_iff]
  exact ⟨(), henv.checkKernCompat, (), hbtf, (), henv.findProgBtfId, loaded, hload, info,
    by rw [hfd]; rfl, q, hq, (), hlink, rfl⟩

/-- All programs of a dispatcher have type information if this can be said of those it has been
made for. -/
theorem btf_of_generate {removeProgs : Bool} {g : Generated}
    (hgen : generate env progs oldMp removeProgs = .ok g)
    (hbtf : ∀ prog ∈ selected progs oldMp removeProgs, ∀ info,
      (loadedBy env prog).progFd = some info → info.btf.isSome) :
    ∀ info ∈ g.linked, info.btf.isSome := by
  obtain ⟨linked, hlinked, rfl⟩ := generate_eq_ok hgen
  refine List.forall_mem_map.mpr (forall_mem_of_forall₂ hlinked fun prog hprog l hl ↦ ?_)
  exact hbtf prog (env.qsort.mem_sort.mp hprog) l.2 (hl.loadedBy_eq ▸ hl.loaded)

theorem GenerateEnv.Grants.btf_loadedBy (henv : env.Grants) {prog : XdpProgram}
    (hprog : Linkable prog) {info : BpfProgInfo} (hinfo : (loadedBy env prog).progFd = some info) :
    info.btf.isSome := by
  obtain ⟨loaded, info', hload, hfd, hdescribed⟩ := henv.exists_ensureLoaded hprog
  rw [loadedBy, hload] at hinfo
  cases hfd.symm.trans hinfo
  exact hdescribed.btf

/-- A list of programs is put together if all is granted. -/
theorem GenerateEnv.Grants.exists_generate_of_newProgs (henv : env.Grants) {removeProgs : Bool}
    (hargs : ¬ (progs = [] ∨ (oldMp.isNone ∧ removeProgs)))
    (hold : ∀ mp ∈ oldMp, mp.isLegacy = false ∧ mp.version = xdpDispatcherVersion)
    (hmany : ¬ tooMany ((oldMp.map XdpMultiprog.numLinks).getD 0) progs.length removeProgs)
    (hentries : newProgs progs oldMp removeProgs = .ok ((selected progs oldMp removeProgs).map some))
    (hlink : ∀ prog ∈ selected progs oldMp removeProgs, Linkable prog) :
    ∃ g, generate env progs oldMp removeProgs = .ok g := by
  have hlegacy : ¬ oldMp.any XdpMultiprog.isLegacy := by
    cases oldMp with
    | none => simp
    | some mp => simp [(hold mp rfl).1]
  have hversion : ¬ oldMp.any (·.version < xdpDispatcherVersion) := by
    cases oldMp with
    | none => simp
    | some mp => simp [(hold mp rfl).2]
  have hsome : ¬ ((selected progs oldMp removeProgs).map some).any Option.isNone := by simp
  obtain ⟨linked, hlinked⟩ : ∃ linked,
      (env.qsort.sort (selected progs oldMp removeProgs)).mapM (linkProg env) = .ok linked :=
    exists_mapM_eq_ok_iff.mpr fun prog hprog ↦
      henv.exists_linkProg (hlink prog (env.qsort.mem_sort.mp hprog))
  refine ⟨⟨populate env.kernelHasFragsSupport (env.qsort.sort (selected progs oldMp removeProgs)),
    linked.map Prod.fst, linked.map Prod.snd⟩, ?_⟩
  simp only [generate, bind_eq_ok_iff, failIf_eq_ok_iff, mapError_eq_ok_iff]
  exact ⟨(), hargs, (), hmany, (), hlegacy, (), hversion, _, hentries, (), fun h ↦ hsome h.2, (),
    henv.openDispatcher, (), hsome, (), henv.setInitialValue, (), henv.loadDispatcher, linked,
    by rw [sort_map_some, hlinked], by rw [sort_map_some]; rfl⟩

/-- Up to ten programs can be put together if all is granted. -/
theorem GenerateEnv.Grants.exists_generate (henv : env.Grants) (hprogs : progs ≠ [])
    (hold : ∀ mp ∈ oldMp, mp.isLegacy = false ∧ mp.version = xdpDispatcherVersion)
    (hlen : (selected progs oldMp false).length ≤ maxDispatcherActions)
    (hlink : ∀ prog ∈ selected progs oldMp false, Linkable prog) :
    ∃ g, generate env progs oldMp false = .ok g := by
  refine henv.exists_generate_of_newProgs (by simp [hprogs]) hold ?_ ?_ hlink
  · cases oldMp with
    | none => simpa [tooMany, selected] using hlen
    | some mp =>
      have hlinks := mp.linked (hold mp rfl).1
      simpa [tooMany, selected, hlinks] using hlen
  · cases oldMp <;> rfl

def passInfo : BpfProgInfo := ⟨9, ⟨[122], by decide⟩, .replicate 8 0, 0, some ⟨[], none⟩, by decide⟩

def passProgram : XdpProgram :=
  { XdpProgram.new passInfo.name with
    bpfProg := some ⟨passInfo.name, 2, 0⟩
    btf := passInfo.btf }

def passEnv : GenerateEnv where
  qsort := insertionSorter cmpXdpPrograms
  kernelHasFragsSupport := true
  openDispatcher := .ok ()
  setInitialValue := .ok ()
  loadDispatcher := .ok ()
  checkKernCompat := .ok ()
  findProgBtfId := .ok ()
  setAttachTarget := .ok ()
  load _ := .ok passInfo
  linkCreate _ := .ok ()
  rawTracepointOpen _ := .error (-einval)

theorem grants_passEnv : passEnv.Grants :=
  ⟨rfl, rfl, rfl, rfl, rfl, rfl, fun _ ↦ ⟨passInfo, rfl, rfl, _, rfl⟩, fun _ ↦ rfl⟩

theorem linkable_passProgram : Linkable passProgram :=
  ⟨rfl, fun _ ↦ rfl, fun _ hinfo ↦ nomatch hinfo⟩

def loadedProgram (id : UInt32) (hid : id ≠ 0) : XdpProgram :=
  { passProgram with progFd := some { passInfo with id, loaded := hid } }

theorem linkable_loadedProgram (id : UInt32) (hid : id ≠ 0) : Linkable (loadedProgram id hid) := by
  refine ⟨rfl, (fun hnone ↦ nomatch hnone), fun info hinfo ↦ ?_⟩
  cases hinfo
  exact ⟨rfl, _, rfl⟩

def earlyProgram (id : UInt32) (hid : id ≠ 0) : XdpProgram :=
  { loadedProgram id hid with runPrio := 10, chainCallActions := 6, retvalFree := by decide }

theorem linkable_earlyProgram (id : UInt32) (hid : id ≠ 0) : Linkable (earlyProgram id hid) := by
  refine ⟨rfl, (fun hnone ↦ nomatch hnone), fun info hinfo ↦ ?_⟩
  cases hinfo
  exact ⟨rfl, _, rfl⟩

theorem seven_ne_zero : (7 : UInt32) ≠ 0 := by decide

theorem eight_ne_zero : (8 : UInt32) ≠ 0 := by decide

def twoPrograms : List XdpProgram := [loadedProgram 7 seven_ne_zero, earlyProgram 8 eight_ne_zero]

theorem linkable_twoPrograms : ∀ prog ∈ twoPrograms, Linkable prog := by
  rw [twoPrograms, List.forall_mem_cons, List.forall_mem_singleton]
  exact ⟨linkable_loadedProgram 7 _, linkable_earlyProgram 8 _⟩

end Granted

section Removal

variable {env : GenerateEnv} {progs : List XdpProgram} {oldMp : Option XdpMultiprog}
  {removeProgs : Bool}

theorem newProgs_ne_fault : newProgs progs oldMp removeProgs ≠ .error .fault := by
  unfold newProgs
  split
  · simp
  · dsimp only
    split_ifs <;> simp

theorem generate_eq_fault_iff (hopen : env.openDispatcher = .ok ()) :
    generate env progs oldMp removeProgs = .error .fault ↔
      ¬ (progs = [] ∨ (oldMp.isNone ∧ removeProgs)) ∧
      ¬ tooMany ((oldMp.map XdpMultiprog.numLinks).getD 0) progs.length removeProgs ∧
      ¬ oldMp.any XdpMultiprog.isLegacy ∧ ¬ oldMp.any (·.version < xdpDispatcherVersion) ∧
      ∃ entries, newProgs progs oldMp removeProgs = .ok entries ∧ entries.any Option.isNone := by
  have hfault : ∀ e : ℤ, Failure.errno e ≠ .fault := fun _ ↦ Failure.noConfusion
  -- the null pointer is met by the sorting, or after the dispatcher has been opened
  have hnull : ∀ p q : Prop, p ∧ q ∨ ¬ (p ∧ q) ∧ q ↔ q := by tauto
  simp only [generate, pure, Except.pure, bind_eq_error_iff, failIf_eq_error_iff, failIf_eq_ok_iff,
    mapError_eq_error_iff, mapError_eq_ok_iff, newProgs_ne_fault, hopen, hfault, reduceCtorEq,
    and_false, and_true, true_and, false_or, or_false, exists_const, hnull]

def countNamed (progs : List XdpProgram) (mp : XdpMultiprog) : ℕ :=
  mp.progs.countP fun prog ↦ ∃ q ∈ progs, q.progId = prog.progId

theorem length_kept (progs : List XdpProgram) (mp : XdpMultiprog) :
    (mp.progs.filter fun prog ↦ ∀ q ∈ progs, q.progId ≠ prog.progId).length + countNamed progs mp =
      mp.progs.length := by
  rw [mp.progs.length_eq_countP_add_countP fun prog ↦ ∃ q ∈ progs, q.progId = prog.progId,
    Nat.add_comm, ← List.countP_eq_length_filter]
  congr 2
  funext prog
  simp

/-- Where no id occurs twice, each program names one program of the chain. -/
theorem countNamed_eq_length {mp : XdpMultiprog} (hchain : (mp.progs.map XdpProgram.progId).Nodup)
    (hprogs : (progs.map XdpProgram.progId).Nodup)
    (hfound : ∀ q ∈ progs, q.progId ∈ mp.progs.map XdpProgram.progId) :
    countNamed progs mp = progs.length := by
  let named := mp.progs.filter fun prog ↦ ∃ q ∈ progs, q.progId = prog.progId
  have hnamed : (named.map XdpProgram.progId).Nodup :=
    hchain.sublist (List.filter_sublist.map XdpProgram.progId)
  have hperm : (named.map XdpProgram.progId).Perm (progs.map XdpProgram.progId) := by
    refine (List.perm_ext_iff_of_nodup hnamed hprogs).mpr fun id ↦ ⟨fun hid ↦ ?_, fun hid ↦ ?_⟩
    · obtain ⟨prog, hprog, rfl⟩ := List.mem_map.mp hid
      obtain ⟨q, hq, heq⟩ := of_decide_eq_true (List.mem_filter.mp hprog).2
      exact List.mem_map.mpr ⟨q, hq, heq⟩
    · obtain ⟨q, hq, rfl⟩ := List.mem_map.mp hid
      obtain ⟨prog, hprog, heq⟩ := List.mem_map.mp (hfound q hq)
      exact List.mem_map.mpr
        ⟨prog, List.mem_filter.mpr ⟨hprog, decide_eq_true ⟨q, hq, heq.symm⟩⟩, heq⟩
  have hlen := hperm.length_eq
  rw [List.length_map, List.length_map] at hlen
  rw [countNamed, List.countP_eq_length_filter, hlen]

/-- Programs that are each in the chain once can be taken away if all is granted. -/
theorem GenerateEnv.Grants.exists_generate_remove (henv : env.Grants) {mp : XdpMultiprog}
    (hprogs : progs ≠ []) (hold : mp.isLegacy = false ∧ mp.version = xdpDispatcherVersion)
    (hcount : countNamed progs mp = progs.length) (hlen : mp.progs.length ≤ maxDispatcherActions)
    (hlink : ∀ prog ∈ mp.progs, Linkable prog) :
    ∃ g, generate env progs (some mp) true = .ok g := by
  have hlinks := mp.linked hold.1
  have hkept := length_kept progs mp
  refine henv.exists_generate_of_newProgs (by simp [hprogs])
    (fun mp' hmp ↦ Option.some_inj.mp hmp ▸ hold) (not_or.mpr ⟨?_, ?_⟩) ?_
    fun prog hprog ↦ hlink prog (List.mem_of_mem_filter hprog)
  · change ¬ mp.numLinks < progs.length
    omega
  · change ¬ maxDispatcherActions < mp.numLinks - progs.length
    omega
  · unfold newProgs
    dsimp only
    rw [if_pos rfl, if_neg (by omega), Nat.sub_eq_zero_of_le (by omega), List.replicate_zero,
      List.append_nil]
    rfl

theorem exists_null_iff {mp : XdpMultiprog} (hlegacy : mp.isLegacy = false) :
    (∃ entries, newProgs progs (some mp) true = .ok entries ∧ entries.any Option.isNone) ↔
      progs.length < countNamed progs mp := by
  have hkept := length_kept progs mp
  have hlinks := mp.linked hlegacy
  unfold newProgs
  dsimp only
  rw [if_pos rfl]
  split_ifs with hmany
  · refine iff_of_false (fun ⟨entries, hentries, _⟩ ↦ nomatch hentries) ?_
    omega
  · have hall : ∀ (l : List XdpProgram) (n : ℕ),
        (l.map some ++ List.replicate n none).any Option.isNone ↔ 0 < n := by
      intro l n
      simp [Nat.pos_iff_ne_zero]
    simp only [Except.ok.injEq, exists_eq_left', hall]
    omega

/-- Taking programs away ends with an access through a null pointer exactly where more of the
programs in the chain have their ids than there are programs to take away. -/
theorem generate_null_pointer_iff (hopen : env.openDispatcher = .ok ()) :
    generate env progs oldMp removeProgs = .error .fault ↔
      removeProgs = true ∧ progs ≠ [] ∧ ∃ mp, oldMp = some mp ∧ mp.isLegacy = false ∧
        xdpDispatcherVersion ≤ mp.version ∧ mp.progs.length - progs.length ≤ maxDispatcherActions ∧
        progs.length < countNamed progs mp := by
  rw [generate_eq_fault_iff hopen]
  cases oldMp with
  | none =>
    refine iff_of_false ?_ (fun ⟨_, _, mp, hmp, _⟩ ↦ nomatch hmp)
    rintro ⟨-, -, -, -, entries, hentries, hnull⟩
    cases hentries
    simp at hnull
  | some mp =>
    cases removeProgs with
    | false =>
      refine iff_of_false ?_ (fun ⟨hremove, _⟩ ↦ nomatch hremove)
      rintro ⟨-, -, -, -, entries, hentries, hnull⟩
      cases hentries
      simp at hnull
    | true =>
      constructor
      · rintro ⟨hargs, hmany, hlegacy, hversion, hnull⟩
        have hlegacy : mp.isLegacy = false := by simpa using hlegacy
        have hlinks := mp.linked hlegacy
        obtain ⟨-, hten⟩ := not_or.mp hmany
        refine ⟨rfl, (not_or.mp hargs).1, mp, rfl, hlegacy, by simpa using hversion, ?_,
          (exists_null_iff hlegacy).mp hnull⟩
        rw [← hlinks]
        exact not_lt.mp hten
      · rintro ⟨-, hprogs, mp', hmp, hlegacy, hversion, hten, hcount⟩
        obtain rfl := Option.some_inj.mp hmp
        have hlinks := mp.linked hlegacy
        have hkept := length_kept progs mp
        refine ⟨by simpa using hprogs, not_or.mpr ⟨?_, ?_⟩, by simpa using hlegacy,
          by simpa using hversion, (exists_null_iff hlegacy).mpr hcount⟩
        · change ¬ mp.numLinks < progs.length
          omega
        · change ¬ maxDispatcherActions < mp.numLinks - progs.length
          omega

def passTwice : XdpMultiprog :=
  let prog := loadedProgram 5 (by decide)
  ⟨1, xdpDispatcherVersion, false, [prog, prog], 2, .skb, fun _ ↦ rfl⟩

theorem generate_null_pointer_twice :
    generate passEnv (passTwice.progs.take 1) (some passTwice) true = .error .fault := by
  refine (generate_null_pointer_iff rfl).mpr ⟨rfl, List.cons_ne_nil _ _, passTwice, rfl, rfl, ?_⟩
  exact ⟨by decide, by decide, by decide⟩

end Removal

end KernelBypass.Libxdp
