import KernelBypass.Libxdp.Generate
import KernelBypass.Libxdp.RunConfig
import Mathlib.Data.List.Permutation

namespace KernelBypass.Libxdp

open Common.CommonParams Common.MapFiles Foundation Bitmap Collect

variable (order : ByteOrder)

/-- The files `prog%d-link` and `prog%d-prog` of a directory `dispatch-%d-%d`. -/
inductive PinFile
  | link (slot : ℕ)
  | prog (slot : ℕ)
  deriving DecidableEq

abbrev PinDir := List (PinFile × BpfProgInfo)

/-- The files of a dispatcher from the slot `i` on, in the order in which they are pinned and
unpinned. -/
def pinFiles (i : ℕ) : List BpfProgInfo → PinDir
  | [] => []
  | info :: l => (.link i, info) :: (.prog i, info) :: pinFiles (i + 1) l

/-- A dispatcher in the kernel: the value of its map, and the programs linked to its slots. -/
structure Dispatcher where
  rodata : List UInt8
  linked : List BpfProgInfo

def Dispatcher.files (d : Dispatcher) : PinDir := pinFiles 0 d.linked

def Dispatcher.info (d : Dispatcher) : DispatcherInfo :=
  ⟨dispatcherName, [⟨4, 1, bpfFRdonlyProg, d.rodata⟩], .ok xdpDispatcherVersion⟩

def Dispatcher.entries (d : Dispatcher) : List Entry :=
  let config := DispatcherConfig.ofBytes order d.rodata
  d.linked.mapIdx fun i info ↦
    ⟨info.id, config.runPrios.toList.getD i 0,
      config.chainCallActions.toList.getD i 0 &&& ~~~(1 <<< xdpDispatcherRetval),
      config.programFlags.toList.getD i 0 &&& bpfFXdpHasFrags ≠ 0⟩

section Reading

def readPinned (config : DispatcherConfig) (dir : PinDir) (i : ℕ) : Except Failure XdpProgram :=
  match dir.lookup (.prog i) with
  | none => .error (.errno (-enoent))
  | some info => do
    let prog ← (fromFd info).mapError .errno
    match config.chainCallActions.toList[i]?, config.runPrios.toList[i]?,
      config.programFlags.toList[i]? with
    | some actions, some runPrio, some flags =>
      return { prog with
        chainCallActions := actions &&& ~~~(1 <<< xdpDispatcherRetval)
        retvalFree := has_and_not_bit_self actions xdpDispatcherRetval
        runPrio
        isFrags := flags &&& bpfFXdpHasFrags ≠ 0 }
    | _, _, _ => .error .fault

def linkPinnedProgs (config : DispatcherConfig) (dir : PinDir) :
    Except Failure (List XdpProgram) :=
  (List.range config.numProgsEnabled.toNat).mapM (readPinned config dir)

/-- `num_links` where the loop has ended with an error: it is not set back. -/
def numRead (config : DispatcherConfig) (dir : PinDir) : ℕ :=
  ((List.range config.numProgsEnabled.toNat).takeWhile fun i ↦ (readPinned config dir i).isOk).length

def legacyMultiprog (mainId version : UInt32) (numLinks : ℕ) (attachMode : XdpAttachMode) :
    XdpMultiprog :=
  ⟨mainId, version, true, [], numLinks, attachMode, fun h ↦ nomatch h⟩

/-- `xdp_multiprog__fill_from_fd` for a program with an id and its directory, where there is
one, and the mode that `xdp_multiprog__get_from_ifindex` sets. -/
def fillFromFd (mainId : UInt32) (info : DispatcherInfo) (dir : Option PinDir)
    (attachMode : XdpAttachMode) : Except Failure XdpMultiprog :=
  match checkDispatcherVersion order info with
  | .error err =>
    if err = .errno (-enoent) then .ok (legacyMultiprog mainId xdpDispatcherVersion 0 attachMode)
    else .error err
  | .ok (version, config) =>
    match dir with
    | none => .ok (legacyMultiprog mainId version 0 attachMode)
    | some dir =>
      match linkPinnedProgs config dir with
      | .ok progs => .ok ⟨mainId, version, false, progs, progs.length, attachMode, fun _ ↦ rfl⟩
      | .error .fault => .error .fault
      | .error (.errno _) =>
        .ok (legacyMultiprog mainId version (numRead config dir) attachMode)

end Reading

section ReadBack

variable {progs : List XdpProgram} {infos : List BpfProgInfo} {d : Dispatcher} {dir : PinDir}

theorem lookup_cons_of_ne {file file' : PinFile} {info : BpfProgInfo} (h : file ≠ file') :
    ((file', info) :: dir).lookup file = dir.lookup file := by
  rw [List.lookup_cons, beq_eq_false_iff_ne.mpr h]

theorem lookup_pinFiles (infos : List BpfProgInfo) (k i : ℕ) :
    (pinFiles k infos).lookup (.link (k + i)) = infos[i]? ∧
      (pinFiles k infos).lookup (.prog (k + i)) = infos[i]? := by
  induction infos generalizing k i with
  | nil => exact ⟨rfl, rfl⟩
  | cons info infos ih =>
    rw [pinFiles, lookup_cons_of_ne (fun h ↦ nomatch h : PinFile.prog (k + i) ≠ .link k)]
    cases i with
    | zero => exact ⟨List.lookup_cons_self, List.lookup_cons_self⟩
    | succ i =>
      have hslot : k + (i + 1) = k + 1 + i := by omega
      have hlink : PinFile.link (k + (i + 1)) ≠ .link k := fun h ↦ by cases h
      have hprog : PinFile.prog (k + (i + 1)) ≠ .prog k := fun h ↦ by cases h
      have hother : PinFile.link (k + (i + 1)) ≠ .prog k := fun h ↦ by cases h
      rw [lookup_cons_of_ne hlink, lookup_cons_of_ne hother, lookup_cons_of_ne hprog,
        List.getElem?_cons_succ, hslot]
      exact ih (k + 1) i

theorem getElem?_tenWords (l : List UInt32) {i : ℕ} (hi : i < maxDispatcherActions) :
    (tenWords l).toList[i]? = some (l.getD i 0) := by
  rw [tenWords, List.Vector.toList_ofFn, List.getElem?_ofFn, dif_pos hi]

theorem getElem?_tenWords_map {f : XdpProgram → UInt32} {i : ℕ} {prog : XdpProgram}
    (hlen : progs.length ≤ maxDispatcherActions) (hprog : progs[i]? = some prog) :
    (tenWords (progs.map f)).toList[i]? = some (f prog) := by
  have hi : i < progs.length := (List.getElem?_eq_some_iff.mp hprog).1
  rw [getElem?_tenWords _ (hi.trans_le hlen), List.getD_eq_getElem?_getD, List.getElem?_map, hprog]
  rfl

theorem programFlags_and_frags (prog : XdpProgram) :
    decide (programFlags prog &&& bpfFXdpHasFrags ≠ 0) = prog.xdpFragsSupport := by
  rw [programFlags]
  cases prog.xdpFragsSupport <;> decide

/-- A program as it is read back from the dispatcher that it has been linked to. -/
structure ReadBack (prog : XdpProgram) (q : XdpProgram) : Prop where
  fd : q.progFd = prog.progFd
  entry : q.entry = prog.entry
  object : q.bpfProg = none
  btf : ∀ info, prog.progFd = some info → q.btf = info.btf
  name : ∀ info, prog.progFd = some info → q.progName = expandName info.name info.btf

theorem readPinned_populate {frags : Bool} {i : ℕ} {prog q : XdpProgram} {info : BpfProgInfo}
    (hlen : progs.length ≤ maxDispatcherActions) (hprog : progs[i]? = some prog)
    (hlookup : dir.lookup (.prog i) = some info) (hq : fromFd info = .ok q) :
    readPinned (populate frags progs) dir i = .ok { q with
      chainCallActions := prog.chainCallActions
      retvalFree := prog.retvalFree
      runPrio := prog.runPrio
      isFrags := prog.xdpFragsSupport } := by
  have hactions : (populate frags progs).chainCallActions.toList[i]? =
      some (prog.chainCallActions ||| 1 <<< xdpDispatcherRetval) :=
    getElem?_tenWords_map hlen hprog
  have hprio : (populate frags progs).runPrios.toList[i]? = some prog.runPrio :=
    getElem?_tenWords_map hlen hprog
  have hflags : (populate frags progs).programFlags.toList[i]? = some (programFlags prog) :=
    getElem?_tenWords_map hlen hprog
  rw [readPinned, hlookup]
  dsimp only
  rw [hq, hactions, hprio, hflags]
  refine congrArg Except.ok ?_
  rw [XdpProgram.mk.injEq]
  exact ⟨rfl, rfl, rfl, rfl, programFlags_and_frags prog, rfl, or_bit_and_not_bit prog.retvalFree⟩

structure Readable (prog : XdpProgram) (info : BpfProgInfo) : Prop where
  fd : prog.progFd = some info
  fromFd : ∃ q, fromFd info = .ok q

structure Dispatcher.Carries (d : Dispatcher) (progs : List XdpProgram) : Prop where
  rodata : ∃ frags, d.rodata = (populate frags progs).bytes order
  length_le : progs.length ≤ maxDispatcherActions
  linked : List.Forall₂ Readable progs d.linked

def Agrees (dir files : PinDir) : Prop :=
  ∀ file info, dir.lookup file = some info → files.lookup file = some info

theorem readBack_of_readPinned {frags : Bool} {i : ℕ} {prog q : XdpProgram} {info : BpfProgInfo}
    (hlen : progs.length ≤ maxDispatcherActions) (hprog : progs[i]? = some prog)
    (hinfo : Readable prog info) (hlookup : ∀ info', dir.lookup (.prog i) = some info' → info' = info)
    (hread : readPinned (populate frags progs) dir i = .ok q) : ReadBack prog q := by
  obtain ⟨p, hp⟩ := hinfo.fromFd
  cases hfile : dir.lookup (.prog i) with
  | none =>
    rw [readPinned, hfile] at hread
    cases hread
  | some info' =>
    obtain rfl := hlookup info' hfile
    rw [readPinned_populate hlen hprog hfile hp] at hread
    cases hread
    have hidentity := identity_fromFd hp
    simp only [XdpProgram.identity, Prod.mk.injEq] at hidentity
    obtain ⟨hobject, hbtf, hfd, hname, -⟩ := hidentity
    have hinfo_eq : ∀ info, prog.progFd = some info → info' = info :=
      fun info hinfo' ↦ Option.some_inj.mp (hinfo.fd.symm.trans hinfo')
    refine ⟨hfd.trans hinfo.fd.symm, ?_, hobject, fun info hinfo' ↦ hinfo_eq info hinfo' ▸ hbtf,
      fun info hinfo' ↦ hinfo_eq info hinfo' ▸ hname⟩
    · rw [XdpProgram.entry, XdpProgram.entry, Entry.mk.injEq]
      refine ⟨?_, rfl, rfl, ?_⟩
      · rw [XdpProgram.progId, XdpProgram.progId, hfd, hinfo.fd]
      · rw [XdpProgram.xdpFragsSupport_of_loaded]
        exact hfd ▸ rfl

theorem numProgsEnabled_populate (frags : Bool) (hlen : progs.length ≤ maxDispatcherActions) :
    (populate frags progs).numProgsEnabled.toNat = progs.length := by
  have hlt : progs.length < 2 ^ 8 := hlen.trans_lt (by decide)
  exact Nat.mod_eq_of_lt hlt

theorem Agrees.refl (files : PinDir) : Agrees files files := fun _ _ h ↦ h

variable {order}

namespace Dispatcher.Carries

variable (h : d.Carries order progs)

include h

theorem info_eq {i : ℕ} {prog : XdpProgram} (hprog : progs[i]? = some prog) :
    ∃ info, d.linked[i]? = some info ∧ Readable prog info := by
  obtain ⟨hi, hget⟩ := List.getElem?_eq_some_iff.mp hprog
  have hi' : i < d.linked.length := h.linked.length_eq ▸ hi
  refine ⟨d.linked[i], List.getElem?_eq_getElem hi', ?_⟩
  exact hget ▸ h.linked.get hi hi'

/-- The entries are those of the programs. -/
theorem entries_eq : d.entries order = progs.map XdpProgram.entry := by
  obtain ⟨frags, hrodata⟩ := h.rodata
  refine List.ext_getElem? fun i ↦ ?_
  rw [entries, hrodata, DispatcherConfig.ofBytes_bytes, List.getElem?_mapIdx, List.getElem?_map]
  cases hprog : progs[i]? with
  | none =>
    have hlen : d.linked.length ≤ i :=
      h.linked.length_eq ▸ List.getElem?_eq_none_iff.mp hprog
    rw [List.getElem?_eq_none_iff.mpr hlen]
    rfl
  | some prog =>
    obtain ⟨info, hinfo, hreadable⟩ := h.info_eq hprog
    have hword : ∀ f : XdpProgram → UInt32, (tenWords (progs.map f)).toList.getD i 0 = f prog := by
      intro f
      rw [List.getD_eq_getElem?_getD, getElem?_tenWords_map h.length_le hprog]
      rfl
    rw [hinfo, Option.map_some, Option.map_some, XdpProgram.entry, XdpProgram.progId, hreadable.fd]
    change some (Entry.mk _ ((tenWords (progs.map _)).toList.getD i 0)
      ((tenWords (progs.map _)).toList.getD i 0 &&& _)
      (decide ((tenWords (progs.map _)).toList.getD i 0 &&& _ ≠ 0))) = _
    rw [hword, hword, hword, or_bit_and_not_bit prog.retvalFree, programFlags_and_frags]
    rfl

theorem checkDispatcherVersion_eq : ∃ frags, checkDispatcherVersion order d.info =
    .ok (xdpDispatcherVersion, populate frags progs) := by
  obtain ⟨frags, hrodata⟩ := h.rodata
  refine ⟨frags, DispatcherConfig.checkDispatcherVersion_bytes order rfl rfl ?_⟩
  exact ⟨rfl, bpfFRdonlyProg, by rw [info, hrodata], by decide⟩

theorem forall₂_readBack {frags : Bool} {l : List XdpProgram} (hdir : Agrees dir d.files)
    (hread : linkPinnedProgs (populate frags progs) dir = .ok l) :
    List.Forall₂ ReadBack progs l := by
  rw [linkPinnedProgs, numProgsEnabled_populate frags h.length_le, mapM_eq_ok_iff] at hread
  have hlen : progs.length = l.length := List.length_range.symm.trans hread.length_eq
  refine List.forall₂_of_length_eq_of_get hlen fun i hi hi' ↦ ?_
  have hround := hread.get (i := i) (by rwa [List.length_range]) hi'
  rw [List.get_eq_getElem, List.getElem_range] at hround
  have hprog : progs[i]? = some (progs.get ⟨i, hi⟩) := List.getElem?_eq_getElem hi
  obtain ⟨info, hinfo, hreadable⟩ := h.info_eq hprog
  refine readBack_of_readPinned h.length_le hprog hreadable (fun info' hlookup ↦ ?_) hround
  have hfile := (lookup_pinFiles d.linked 0 i).2
  rw [Nat.zero_add, hinfo] at hfile
  exact Option.some_inj.mp ((hdir _ _ hlookup).symm.trans hfile)

theorem linkPinnedProgs_files (frags : Bool) :
    ∃ l, linkPinnedProgs (populate frags progs) d.files = .ok l := by
  rw [linkPinnedProgs, numProgsEnabled_populate frags h.length_le]
  refine exists_mapM_eq_ok_iff.mpr fun i hi ↦ ?_
  have hi : i < progs.length := List.mem_range.mp hi
  have hprog : progs[i]? = some progs[i] := List.getElem?_eq_getElem hi
  obtain ⟨info, hinfo, hreadable⟩ := h.info_eq hprog
  obtain ⟨q, hq⟩ := hreadable.fromFd
  have hfile := (lookup_pinFiles d.linked 0 i).2
  rw [Nat.zero_add, hinfo] at hfile
  exact ⟨_, readPinned_populate h.length_le hprog hfile hq⟩

/-- Whatever is left of the directory, the multiprog that is read from it is the dispatcher
itself, or it is taken for a legacy program. -/
theorem fillFromFd_eq_ok {mainId : UInt32} {dir? : Option PinDir} {attachMode : XdpAttachMode}
    {mp : XdpMultiprog} (hdir : ∀ dir, dir? = some dir → Agrees dir d.files)
    (hmp : fillFromFd order mainId d.info dir? attachMode = .ok mp) :
    mp.mainId = mainId ∧ mp.attachMode = attachMode ∧
      (mp.isLegacy = false → List.Forall₂ ReadBack progs mp.progs) := by
  obtain ⟨frags, hcheck⟩ := h.checkDispatcherVersion_eq
  rw [fillFromFd, hcheck] at hmp
  dsimp only at hmp
  cases dir? with
  | none =>
    cases hmp
    exact ⟨rfl, rfl, fun hlegacy ↦ nomatch hlegacy⟩
  | some dir =>
    dsimp only at hmp
    split at hmp
    · rename_i l hread
      cases hmp
      exact ⟨rfl, rfl, fun _ ↦ h.forall₂_readBack (hdir dir rfl) hread⟩
    · cases hmp
    · cases hmp
      exact ⟨rfl, rfl, fun hlegacy ↦ nomatch hlegacy⟩

/-- From a directory that is complete the dispatcher is read. -/
theorem fillFromFd_files (mainId : UInt32) (attachMode : XdpAttachMode) :
    ∃ mp, fillFromFd order mainId d.info (some d.files) attachMode = .ok mp ∧
      mp.isLegacy = false ∧ mp.version = xdpDispatcherVersion := by
  obtain ⟨frags, hcheck⟩ := h.checkDispatcherVersion_eq
  obtain ⟨l, hl⟩ := h.linkPinnedProgs_files frags
  refine ⟨⟨mainId, xdpDispatcherVersion, false, l, l.length, attachMode, fun _ ↦ rfl⟩, ?_, rfl, rfl⟩
  rw [fillFromFd, hcheck]
  dsimp only
  rw [hl]

end Dispatcher.Carries

end ReadBack

section Generated

variable {env : GenerateEnv} {progs : List XdpProgram} {oldMp : Option XdpMultiprog}
  {removeProgs : Bool} {g : Generated}

def Generated.dispatcher (g : Generated) : Dispatcher := ⟨g.config.bytes order, g.linked⟩

/-- What a dispatcher is configured with is not changed by the linking. -/
theorem populate_eq_of_links {frags : Bool} {linked : List (XdpProgram × BpfProgInfo)}
    (h : List.Forall₂ (Links env) progs linked) :
    populate frags progs = populate frags (linked.map Prod.fst) := by
  have hmap : ∀ {α : Type} (f : XdpProgram → α), (∀ prog l, Links env prog l → f prog = f l.1) →
      progs.map f = (linked.map Prod.fst).map f := by
    intro α f hf
    rw [List.map_map]
    exact map_eq_map_of_forall₂ h hf
  have hflags : ∀ prog l, Links env prog l → programFlags prog = programFlags l.1 := by
    intro prog l hl
    rw [programFlags, programFlags, hl.frags]
  have hall : progs.all XdpProgram.xdpFragsSupport =
      (linked.map Prod.fst).all XdpProgram.xdpFragsSupport := by
    have hmaps := congrArg (List.all · id) (hmap _ fun _ _ hl ↦ hl.frags.symm)
    simpa only [List.all_map, Function.id_comp] using hmaps
  have hlen : progs.length = (linked.map Prod.fst).length := by
    rw [List.length_map, h.length_eq]
  rw [populate, populate, hlen, hall, hmap _ hflags, hmap _ fun _ _ hl ↦ hl.prio.symm,
    hmap (fun prog ↦ prog.chainCallActions ||| 1 <<< xdpDispatcherRetval)
      fun _ _ hl ↦ congrArg (· ||| 1 <<< xdpDispatcherRetval) hl.actions.symm]

theorem readable_of_links {linked : List (XdpProgram × BpfProgInfo)}
    (h : List.Forall₂ (Links env) progs linked) :
    List.Forall₂ Readable (linked.map Prod.fst) (linked.map Prod.snd) := by
  induction h with
  | nil => exact .nil
  | cons hl h ih => exact .cons ⟨hl.loaded, hl.readable⟩ ih

theorem generate_carries (h : generate env progs oldMp removeProgs = .ok g) :
    (g.dispatcher order).Carries order g.progs := by
  obtain ⟨linked, hlinked, rfl⟩ := generate_eq_ok h
  refine ⟨⟨env.kernelHasFragsSupport, ?_⟩, ?_, ?_⟩
  · rw [Generated.dispatcher, populate_eq_of_links hlinked]
  · rw [List.length_map, ← hlinked.length_eq, env.qsort.length_sort]
    exact (generate_length h).1
  · exact readable_of_links hlinked

structure Joins (prog : XdpProgram) (e : Entry) : Prop where
  kept : ∀ info, prog.progFd = some info → e.id = info.id
  prio : e.runPrio = prog.runPrio
  actions : e.chainCallActions = prog.chainCallActions
  frags : e.isFrags = prog.xdpFragsSupport

theorem Links.joins {prog : XdpProgram} {l : XdpProgram × BpfProgInfo} (h : Links env prog l) :
    Joins prog l.1.entry where
  kept info hinfo := by
    rw [XdpProgram.entry, XdpProgram.progId, h.loaded, h.kept info hinfo]
    rfl
  prio := h.prio
  actions := h.actions
  frags := h.frags

theorem loadedBy_of_loaded {prog : XdpProgram} (hloaded : prog.progFd.isSome) :
    loadedBy env prog = prog := by
  obtain ⟨info, hinfo⟩ := Option.isSome_iff_exists.mp hloaded
  rw [loadedBy, ensureLoaded, hinfo]
  rfl

def joined (env : GenerateEnv) (prog : XdpProgram) : Entry := (loadedBy env prog).entry

theorem joined_of_loaded {prog : XdpProgram} (hloaded : prog.progFd.isSome) :
    joined env prog = prog.entry := by
  rw [joined, loadedBy_of_loaded hloaded]

/-- The entries of a new dispatcher are those of the programs selected for it. -/
theorem generate_entries (h : generate env progs oldMp removeProgs = .ok g) :
    (∀ prog ∈ selected progs oldMp removeProgs, Joins prog (joined env prog)) ∧
      ((g.dispatcher order).entries order).Perm
        ((selected progs oldMp removeProgs).map (joined env)) := by
  have hentries := (generate_carries order h).entries_eq
  obtain ⟨linked, hlinked, rfl⟩ := generate_eq_ok h
  have hperm := env.qsort.perm (selected progs oldMp removeProgs)
  have hjoins : ∀ prog ∈ env.qsort.sort (selected progs oldMp removeProgs),
      Joins prog (joined env prog) := by
    refine forall_mem_of_forall₂ hlinked.flip fun l _ prog hl ↦ ?_
    rw [joined, hl.loadedBy_eq]
    exact hl.joins
  refine ⟨fun prog hprog ↦ hjoins prog (hperm.mem_iff.mpr hprog), ?_⟩
  have hmap : (env.qsort.sort (selected progs oldMp removeProgs)).map (joined env) =
      linked.map (·.1.entry) :=
    map_eq_map_of_forall₂ hlinked fun _ _ hl ↦ congrArg XdpProgram.entry hl.loadedBy_eq
  rw [hentries, List.map_map]
  change (linked.map (·.1.entry)).Perm _
  rw [← hmap]
  exact hperm.map _

def oldEntries (oldMp : Option XdpMultiprog) : List Entry :=
  (oldMp.elim [] XdpMultiprog.progs).map XdpProgram.entry

theorem generate_adds (h : generate env progs oldMp false = .ok g)
    (hloaded : ∀ mp ∈ oldMp, ∀ prog ∈ mp.progs, prog.progFd.isSome) :
    List.Forall₂ Joins progs (progs.map (joined env)) ∧
      ((g.dispatcher order).entries order).Perm (oldEntries oldMp ++ progs.map (joined env)) := by
  obtain ⟨hjoins, hperm⟩ := generate_entries order h
  have hnew : (∀ prog ∈ progs, Joins prog (joined env prog)) →
      List.Forall₂ Joins progs (progs.map (joined env)) := fun hall ↦
    List.forall₂_map_right_iff.mpr (List.forall₂_same.mpr hall)
  cases oldMp with
  | none => exact ⟨hnew hjoins, hperm⟩
  | some mp =>
    refine ⟨hnew fun prog hprog ↦ hjoins prog (List.mem_append_right _ hprog), ?_⟩
    have hold : oldEntries (some mp) = mp.progs.map (joined env) :=
      List.map_congr_left fun prog hprog ↦ (joined_of_loaded (hloaded mp rfl prog hprog)).symm
    rw [hold, ← List.map_append]
    exact hperm

theorem generate_removes {mp : XdpMultiprog} (h : generate env progs (some mp) true = .ok g)
    (hloaded : ∀ prog ∈ mp.progs, prog.progFd.isSome) :
    ((g.dispatcher order).entries order).Perm
        ((oldEntries (some mp)).filter fun e ↦ ∀ q ∈ progs, q.progId ≠ e.id) ∧
      ((g.dispatcher order).entries order).length + progs.length =
        (oldEntries (some mp)).length := by
  have hperm := (generate_entries order h).2
  have hlen := (generate_length h).2 mp rfl rfl
  have hkept : (selected progs (some mp) true).map (joined env) =
      (selected progs (some mp) true).map XdpProgram.entry :=
    List.map_congr_left fun prog hprog ↦
      joined_of_loaded (hloaded prog (List.mem_of_mem_filter hprog))
  refine ⟨?_, ?_⟩
  · refine hperm.trans (List.Perm.of_eq ?_)
    rw [hkept, oldEntries, List.filter_map]
    rfl
  · rw [hperm.length_eq, oldEntries, List.length_map, List.length_map]
    exact hlen

/-- The programs that are read from a dispatcher have no object, so that their sizes do not
count. -/
theorem comparable_selected
    (hold : ∀ mp ∈ oldMp, ∀ prog ∈ mp.progs, prog.progFd.isSome ∧ prog.bpfProg = none)
    (hsizes : removeProgs = false → SizesAgree progs) (hargs : oldMp = none → removeProgs = false)
    (hobject : ∀ prog ∈ selected progs oldMp removeProgs, prog.progFd = none → prog.bpfProg.isSome) :
    Comparable (selected progs oldMp removeProgs) := by
  refine ⟨hobject, fun a ha b hb _ _ hprio hname ↦ ?_⟩
  have hnone : ∀ x y : Option BpfProgram, x = none ∨ y = none → cmpInsnCnt x y = .eq := by
    rintro x y (rfl | rfl)
    · rfl
    · cases x <;> rfl
  have hcases : ∀ prog ∈ selected progs oldMp removeProgs,
      prog.bpfProg = none ∨ removeProgs = false ∧ prog ∈ progs := by
    intro prog hprog
    cases oldMp with
    | none => exact Or.inr ⟨hargs rfl, hprog⟩
    | some mp =>
      unfold selected at hprog
      dsimp only at hprog
      split_ifs at hprog with hremove
      · exact Or.inl (hold mp rfl prog (List.mem_of_mem_filter hprog)).2
      · rcases List.mem_append.mp hprog with hmem | hmem
        · exact Or.inl (hold mp rfl prog hmem).2
        · exact Or.inr ⟨Bool.eq_false_of_not_eq_true hremove, hmem⟩
  rcases hcases a ha with ha' | ⟨hadd, ha'⟩
  · exact hnone _ _ (Or.inl ha')
  · rcases hcases b hb with hb' | ⟨-, hb'⟩
    · exact hnone _ _ (Or.inr hb')
    · exact hsizes hadd a ha' b hb' hprio hname

/-- Two programs of different priorities can only be in one order. -/
theorem eq_pair_of_sorted {l : List Entry} {a b : Entry} (hperm : l.Perm [a, b])
    (hsorted : l.Pairwise fun x y ↦ x.runPrio ≤ y.runPrio) (hlt : b.runPrio < a.runPrio) :
    l = [b, a] := by
  refine (List.perm_pair.mp hperm).resolve_left ?_
  rintro rfl
  exact absurd (List.rel_of_pairwise_cons hsorted (List.mem_singleton.mpr rfl)) (UInt32.not_le.mpr hlt)

/-- A dispatcher is made for its programs in the order of their priorities. -/
theorem generate_sorted (h : generate env progs oldMp removeProgs = .ok g)
    (hold : ∀ mp ∈ oldMp, ∀ prog ∈ mp.progs, prog.progFd.isSome ∧ prog.bpfProg = none)
    (hsizes : removeProgs = false → SizesAgree progs) :
    ((g.dispatcher order).entries order).Pairwise fun a b ↦ a.runPrio ≤ b.runPrio := by
  have hentries := (generate_carries order h).entries_eq
  have hargs : oldMp = none → removeProgs = false := by
    rintro rfl
    exact removeProgs_of_generate_none h
  obtain ⟨linked, hlinked, rfl⟩ := generate_eq_ok h
  have hobject : ∀ prog ∈ selected progs oldMp removeProgs, prog.progFd = none →
      prog.bpfProg.isSome := by
    intro prog hprog
    exact forall_mem_of_forall₂ hlinked.flip (fun _ _ _ hl ↦ hl.object) prog
      (env.qsort.mem_sort.mpr hprog)
  have hsorted := env.qsort.sorted _ (comparable_selected hold hsizes hargs hobject).consistent
  have hprios : (env.qsort.sort (selected progs oldMp removeProgs)).map XdpProgram.runPrio =
      linked.map (·.1.runPrio) := map_eq_map_of_forall₂ hlinked fun _ _ hl ↦ hl.prio.symm
  have hpairs : (linked.map (·.1.runPrio)).Pairwise (· ≤ ·) := by
    rw [← hprios, List.pairwise_map]
    exact hsorted.imp runPrio_le_of_cmp
  rw [hentries, List.map_map, List.pairwise_map]
  exact List.pairwise_map.mp hpairs

/-- A dispatcher that has been made and pinned is read back with the same programs, in the
same order and with the same settings. -/
theorem generate_reads_back (mainId : UInt32) (attachMode : XdpAttachMode)
    (h : generate env progs oldMp removeProgs = .ok g) :
    ∃ mp, fillFromFd order mainId (g.dispatcher order).info (some (g.dispatcher order).files)
        attachMode = .ok mp ∧
      mp.isLegacy = false ∧ mp.version = xdpDispatcherVersion ∧ mp.mainId = mainId ∧
      mp.attachMode = attachMode ∧ List.Forall₂ ReadBack g.progs mp.progs ∧
      mp.progs.map XdpProgram.entry = (g.dispatcher order).entries order := by
  have hcarries := generate_carries order h
  obtain ⟨mp, hmp, hlegacy, hversion⟩ := hcarries.fillFromFd_files mainId attachMode
  obtain ⟨hid, hmode, hread⟩ := hcarries.fillFromFd_eq_ok
    (fun dir hdir ↦ Option.some_inj.mp hdir ▸ Agrees.refl _) hmp
  refine ⟨mp, hmp, hlegacy, hversion, hid, hmode, hread hlegacy, ?_⟩
  rw [hcarries.entries_eq]
  exact (map_eq_map_of_forall₂ (hread hlegacy) fun _ _ hq ↦ hq.entry.symm).symm

theorem generate_reads_back_two : ∃ g mp, generate passEnv twoPrograms none false = .ok g ∧
    fillFromFd .little 1 (g.dispatcher .little).info (some (g.dispatcher .little).files) .skb =
      .ok mp ∧ mp.isLegacy = false ∧
    mp.progs.map XdpProgram.entry = [⟨8, 10, 6, false⟩, ⟨7, 50, 4, false⟩] := by
  obtain ⟨g, hgen⟩ : ∃ g, generate passEnv twoPrograms none false = .ok g :=
    grants_passEnv.exists_generate (List.cons_ne_nil _ _) (fun mp hmp ↦ nomatch hmp) (by decide)
      linkable_twoPrograms
  obtain ⟨mp, hmp, hlegacy, -, -, -, -, hentries⟩ := generate_reads_back .little 1 .skb hgen
  have hperm := (generate_adds .little hgen fun mp hmp ↦ nomatch hmp).2
  have hsorted := generate_sorted .little hgen (fun mp hmp ↦ nomatch hmp) fun _ ↦
    sizesAgree_pair (by decide)
  exact ⟨g, mp, hgen, hmp, hlegacy, hentries.trans (eq_pair_of_sorted hperm hsorted (by decide))⟩

end Generated

end KernelBypass.Libxdp
