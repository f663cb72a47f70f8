import KernelBypass.Common.Unload
import KernelBypass.Libxdp.Detaching

namespace KernelBypass.Xdp.PassUser

open Common.CommonParams Common.MapFiles Common.Unload Foundation Libxdp

abbrev exitOk : ℤ := 0

/-- The answers that `main` gets: to the parsing of its arguments, to the calls of `do_unload`,
to the creation of its program and the attachment of it, and to the query of what has been
attached, with the texts of errors. -/
structure PassEnv where
  args : Environment
  libxdp : XdpEnvironment
  create : Except ℤ XdpProgram
  attach : XdpProgram → Int32 → XdpAttachMode → ℤ
  getInfo : Except ℤ BpfProgInfo
  libxdpStrerror : ℤ → String
  strerror : String

/-- The end of the process: its code, what it has written, and whether the usage printed
before was the full one. -/
structure Outcome where
  ret : ℤ
  stdout : List UInt8
  stderr : List UInt8
  fullHelp : Option Bool

def progname : String := "xdp_prog_simple"

def start : State := { zeroed with cfg := { zeroed.cfg with ifindex := -1 } }

variable (env : PassEnv) (cfg : Config)

def unload : Outcome :=
  let u := doUnload env.libxdp cfg
  if u.ret ≠ 0 then
    ⟨u.ret, u.stdout, u.stderr ++ text ("Couldn't unload XDP program " ++ progname ++ ": " ++
      env.libxdpStrerror u.ret ++ "\n"), none⟩
  else
    ⟨exitOk, u.stdout ++ text ("Success: Unloading XDP prog name: " ++ progname ++ "\n"), u.stderr,
      none⟩

def loadedText (info : BpfProgInfo) : List UInt8 :=
  text "Success: Loading XDP prog name:" ++ info.name.bytes ++
    text ("(id:" ++ toString info.id.toInt32 ++ ") on device:") ++ ifnameText cfg ++
    text ("(ifindex:" ++ toString cfg.ifindex ++ ")\n")

def load : Outcome :=
  match env.create with
  | .error err => ⟨err, [], text ("Couldn't get XDP program " ++ progname ++ ": " ++
      env.libxdpStrerror err ++ "\n"), none⟩
  | .ok prog =>
    let err := env.attach prog cfg.ifindex cfg.attachMode
    if err ≠ 0 then
      ⟨err, [], text "Couldn't attach XDP program on iface '" ++ ifnameText cfg ++
        text ("' : " ++ env.libxdpStrerror err ++ " (" ++ toString err ++ ")\n"), none⟩
    else
      match env.getInfo with
      | .error err => ⟨err, [], text ("ERR: can't get prog info - " ++ env.strerror ++ "\n"), none⟩
      | .ok info => ⟨exitOk, loadedText cfg info, [], none⟩

def main (argc : ℕ) (opts : List Opt) : Outcome :=
  match parseCmdlineArgs env.args opts start with
  | .error e => ⟨e.code, [], text e.stderr, e.fullHelp⟩
  | .ok s =>
    if s.cfg.ifindex = -1 then
      ⟨exitFailOption, [], text "ERR: required option --dev missing\n", some (argc = 1)⟩
    else if s.cfg.doUnload ∨ s.cfg.unloadAll then unload env s.cfg
    else load env s.cfg

def loaded (prog : XdpProgram) : Option LoadedProgram :=
  prog.progFd.map fun info ↦ ⟨info.id, info.loaded⟩

def multiprogOf (mp : XdpMultiprog) : Multiprog where
  isLegacy := mp.isLegacy
  components := mp.progs.filterMap loaded
  mainProg := if hid : mp.mainId ≠ 0 then some ⟨mp.mainId, hid⟩ else none
  hwProg := none
  attachMode := mp.attachMode

variable {env cfg} {mp : XdpMultiprog}

theorem progId_of_loaded {prog : XdpProgram} {p : LoadedProgram} (hp : loaded prog = some p) :
    prog.progId = p.id := by
  obtain ⟨info, hinfo, rfl⟩ := Option.map_eq_some_iff.mp hp
  rw [XdpProgram.progId, hinfo]
  rfl

theorem exists_info {prog : XdpProgram} (hid : prog.progId ≠ 0) :
    ∃ info, prog.progFd = some info ∧ info.id = prog.progId := by
  unfold XdpProgram.progId at hid ⊢
  cases hfd : prog.progFd with
  | none => exact absurd (by rw [hfd]; rfl) hid
  | some info => exact ⟨info, rfl, rfl⟩

theorem progId_eq_of_loaded {prog prog' : XdpProgram} (h : loaded prog = loaded prog') :
    prog.progId = prog'.progId := by
  unfold loaded at h
  unfold XdpProgram.progId
  cases hfd : prog.progFd <;> cases hfd' : prog'.progFd <;> simp_all

/-- `do_unload` finds each program of a dispatcher by its id. -/
theorem exists_findProg {id : UInt32} (hlegacy : mp.isLegacy = false) (hid : id ≠ 0)
    (hmem : id ∈ mp.progs.map XdpProgram.progId) : ∃ q ∈ mp.progs, q.progId = id ∧
      findProg (multiprogOf mp) id = some (loaded q, mp.attachMode) := by
  have hnext : (multiprogOf mp).nextProgs = mp.progs.filterMap loaded :=
    if_neg (by change ¬ mp.isLegacy = true; rw [hlegacy]; decide)
  rw [findProg, hnext]
  cases hfind : (mp.progs.filterMap loaded).find? (fun p ↦ xdpProgramId (some p) = id) with
  | none =>
    obtain ⟨q, hq, rfl⟩ := List.mem_map.mp hmem
    obtain ⟨info, hinfo, hinfoId⟩ := exists_info hid
    have hp : loaded q = some ⟨info.id, info.loaded⟩ := by
      rw [loaded, hinfo]
      rfl
    have hnot := List.find?_eq_none.mp hfind _ (List.mem_filterMap.mpr ⟨q, hq, hp⟩)
    exact absurd (decide_eq_true hinfoId) hnot
  | some p =>
    obtain ⟨q, hq, hp⟩ := List.mem_filterMap.mp (List.mem_of_find?_eq_some hfind)
    have hpid := List.find?_some hfind
    rw [decide_eq_true_eq] at hpid
    refine ⟨q, hq, (progId_of_loaded hp).trans hpid, ?_⟩
    rw [hp]
    rfl

variable {order : ByteOrder} {K : Kernel} {h : Host}

/-- The calls of `load` as they act on the interfaces, where nothing is refused to them: `prog` is
attached to one of them, and the kernel has `info` on it. -/
structure LoadsOn (order : ByteOrder) (K : Kernel) (env : PassEnv) (cfg : Config)
    (prog : XdpProgram) (info : BpfProgInfo) (hosts hosts' : Int32 → Host) : Prop where
  create : env.create = .ok prog
  getInfo : env.getInfo = .ok info
  attach : ∃ prog' h', prog'.progFd = some info ∧
    Granted order K (.attachMulti [prog] cfg.attachMode false)
      (env.attach prog cfg.ifindex cfg.attachMode) [prog'] (hosts cfg.ifindex) h' ∧
    hosts' = Function.update hosts cfg.ifindex h'

/-- The calls of `do_unload` for one program as they act on the interfaces, where nothing is
refused to them: what is attached is looked up, and the program that is chosen is detached. -/
structure UnloadsOn (order : ByteOrder) (K : Kernel) (env : PassEnv) (cfg : Config)
    (mp : XdpMultiprog) (hosts hosts' : Int32 → Host) : Prop where
  lookup : ∃ id mode, (hosts cfg.ifindex).attached = some (id, mode) ∧
    Reads order (hosts cfg.ifindex) id mode .moved (.ok mp)
  found : env.libxdp.getFromIfindex cfg.ifindex = .found (multiprogOf mp)
  detach : ∀ p mode, (doUnload env.libxdp cfg).detached = some (p, mode) →
    ∃ q ∈ mp.progs, ∃ ps h', loaded q = p ∧
      Granted order K (.detachMulti [q] mode) (env.libxdp.programDetach p cfg.ifindex mode) ps
        (hosts cfg.ifindex) h' ∧
      hosts' = Function.update hosts cfg.ifindex h'

theorem load_eq {prog : XdpProgram} {info : BpfProgInfo} (hcreate : env.create = .ok prog)
    (hattach : env.attach prog cfg.ifindex cfg.attachMode = 0) (hinfo : env.getInfo = .ok info) :
    load env cfg = ⟨exitOk, loadedText cfg info, [], none⟩ := by
  rw [load, hcreate]
  dsimp only
  rw [hattach, if_neg (not_not.mpr rfl), hinfo]

/-- A program that `do_unload` finds is handed to `xdp_program__detach`. -/
theorem doUnload_found {xenv : XdpEnvironment} {q : XdpProgram}
    (hlookup : xenv.getFromIfindex cfg.ifindex = .found (multiprogOf mp))
    (hall : cfg.unloadAll = false)
    (hfind : findProg (multiprogOf mp) cfg.progId = some (loaded q, mp.attachMode)) :
    (doUnload xenv cfg).detached = some (loaded q, mp.attachMode) ∧
      (doUnload xenv cfg).ret =
        exitCode (xenv.programDetach (loaded q) cfg.ifindex mp.attachMode) := by
  rw [doUnload, hlookup]
  dsimp only
  rw [hall, if_neg Bool.false_ne_true, hfind]
  exact ⟨rfl, rfl⟩

theorem unload_ret (hret : (doUnload env.libxdp cfg).ret = 0) : (unload env cfg).ret = exitOk := by
  rw [unload, if_neg (not_not.mpr hret)]

theorem filter_append_singleton {l : List Entry} {e : Entry} {q : XdpProgram}
    (hnodup : ((l ++ [e]).map Entry.id).Nodup) (hq : q.progId = e.id) :
    ((l ++ [e]).filter fun e' ↦ ∀ q' ∈ [q], q'.progId ≠ e'.id) = l := by
  rw [List.map_append, List.nodup_append] at hnodup
  have hne : ∀ e' ∈ l, e.id ≠ e'.id := fun e' he' heq ↦
    hnodup.2.2 e'.id (List.mem_map_of_mem he') e.id (List.mem_singleton_self _) heq.symm
  rw [List.filter_append, List.filter_eq_self.mpr fun e' he' ↦ ?_, List.filter_cons_of_neg ?_]
  · exact List.append_nil l
  · simp [hq]
  · simpa [hq] using hne e' he'

section Composition

variable {env' : PassEnv} {prog : XdpProgram} {info : BpfProgInfo} {s s' : State}
  {opts opts' : List Opt} {argc : ℕ} {hosts hosts₁ hosts₂ : Int32 → Host}

theorem main_eq_load (hparse : parseCmdlineArgs env.args opts start = .ok s)
    (hdev : s.cfg.ifindex ≠ -1) (hload : s.cfg.doUnload = false ∧ s.cfg.unloadAll = false) :
    main env argc opts = load env s.cfg := by
  rw [main, hparse]
  dsimp only
  rw [if_neg hdev, if_neg (by rw [hload.1, hload.2]; decide)]

theorem main_eq_unload (hparse : parseCmdlineArgs env.args opts start = .ok s)
    (hdev : s.cfg.ifindex ≠ -1) (hunload : s.cfg.doUnload = true) :
    main env argc opts = unload env s.cfg := by
  rw [main, hparse]
  dsimp only
  rw [if_neg hdev, if_pos (Or.inl hunload)]

theorem attachMode_eq (hshows : h.Shows order (some mp)) {id : UInt32} {mode : XdpAttachMode}
    (hattached : h.attached = some (id, mode)) : mp.attachMode = mode :=
  (Prod.mk.inj (Option.some_inj.mp (hshows.attached.symm.trans hattached))).2

/-- `do_unload` has the program taken away whose id it is given. -/
theorem exists_detached (hshows : h.Shows order (some mp))
    (hfound : env.libxdp.getFromIfindex cfg.ifindex = .found (multiprogOf mp))
    (hall : cfg.unloadAll = false) (hid : info.id = cfg.progId)
    (hmem : info.id ∈ (h.chain order).map Entry.id) :
    ∃ q ∈ mp.progs, q.progId = info.id ∧
      (doUnload env.libxdp cfg).detached = some (loaded q, mp.attachMode) ∧
      (doUnload env.libxdp cfg).ret =
        exitCode (env.libxdp.programDetach (loaded q) cfg.ifindex mp.attachMode) := by
  rw [map_id_chain hshows] at hmem
  obtain ⟨q, hq, hqid, hfind⟩ := exists_findProg (hshows.dispatcher mp rfl).2.1 info.loaded hmem
  exact ⟨q, hq, hqid, doUnload_found hfound hall (hid ▸ hfind)⟩

section Reloaded

variable {mode : XdpAttachMode} {genv : GenerateEnv} {oldMp : Option XdpMultiprog} {g : Generated}
  {new : UInt32}

theorem id_joined (hfd : (loadedBy genv prog).progFd = some info) :
    (joined genv prog).id = info.id := by
  change (loadedBy genv prog).progId = _
  rw [XdpProgram.progId, hfd]
  rfl

theorem nodup_joined (hfd : (loadedBy genv prog).progFd = some info)
    (hnodup : ((h.chain order).map Entry.id).Nodup)
    (hfresh : info.id ∉ (h.chain order).map Entry.id) :
    ((h.chain order ++ [joined genv prog]).map Entry.id).Nodup := by
  rw [List.map_append, List.map_singleton, id_joined hfd]
  exact List.nodup_append.mpr ⟨hnodup, List.nodup_singleton _, by simpa using hfresh⟩

theorem mem_joined (hfd : (loadedBy genv prog).progFd = some info) :
    info.id ∈ (h.chain order ++ [joined genv prog]).map Entry.id := by
  simp [id_joined hfd]

/-- The program that has been attached can be taken away under the id that it has been given. -/
theorem detachable_joined (ha : Attachable order K h [prog] mode false) (hnew : new ≠ 0)
    (hshows : h.Shows order oldMp) (hgen : generate genv [prog] oldMp false = .ok g)
    (hfd : (loadedBy genv prog).progFd = some info) (hbtf : info.btf.isSome)
    (hok : (h.replaced oldMp new (g.dispatcher order) (K.resolve mode)).Ok order)
    (hnodup : ((h.chain order).map Entry.id).Nodup)
    (hfresh : info.id ∉ (h.chain order).map Entry.id) {q : XdpProgram} (hq : q.progId = info.id) :
    Detachable order K (h.replaced oldMp new (g.dispatcher order) (K.resolve mode)) [q] mode := by
  refine ha.detachable hnew hshows hgen (List.forall_mem_singleton.mpr fun info' hinfo' ↦ ?_) hok
    (nodup_joined hfd hnodup hfresh) (List.cons_ne_nil q []) (List.nodup_singleton _)
    (List.forall_mem_singleton.mpr (hq ▸ ⟨info.loaded, mem_joined hfd⟩))
  exact Option.some_inj.mp (hfd.symm.trans hinfo') ▸ hbtf

/-- Taking it away leaves what was there before it. -/
theorem chain_undone (ha : Attachable order K h [prog] mode false) (hdriver : K.driverMode ≠ .hw)
    (hnew : new ≠ 0) (hshows : h.Shows order oldMp)
    (hgen : generate genv [prog] oldMp false = .ok g)
    (hfd : (loadedBy genv prog).progFd = some info) (hbtf : info.btf.isSome)
    (hok : (h.replaced oldMp new (g.dispatcher order) (K.resolve mode)).Ok order)
    (hnodup : ((h.chain order).map Entry.id).Nodup)
    (hfresh : info.id ∉ (h.chain order).map Entry.id) {q : XdpProgram} (hq : q.progId = info.id)
    {err : ℤ} {ps : List XdpProgram} {h' : Host}
    (hcall : Granted order K (.detachMulti [q] (K.resolve mode)) err ps
      (h.replaced oldMp new (g.dispatcher order) (K.resolve mode)) h') :
    err = 0 ∧ (h'.chain order).Perm (h.chain order) ∧
      (h'.attached = none ↔ h.chain order = []) := by
  have hd := (detachable_joined ha hnew hshows hgen hfd hbtf hok hnodup hfresh hq).resolve hdriver
  obtain ⟨rfl, hchain, hnone⟩ := hd.chain_eq (hd.result hcall)
  have hperm := (ha.chain_replaced hshows hgen new).filter fun e ↦ ∀ p ∈ [q], p.progId ≠ e.id
  rw [List.map_singleton, filter_append_singleton (nodup_joined hfd hnodup hfresh)
    (hq.trans (id_joined hfd).symm)] at hperm
  refine ⟨rfl, hchain.trans hperm, ?_⟩
  rw [hnone]
  exact ⟨fun hnil ↦ (hnil ▸ hperm).nil_eq.symm, fun hnil ↦ (hnil ▸ hperm).eq_nil⟩

end Reloaded

/-- Running the program and then running it again on the same interface with the option `-U` and
the id that it has printed leaves that interface with the chain that it had and all others as they
were, and both succeed, where nothing is refused to them and nobody interferes. -/
theorem unload_undoes_load (hK : K.replaces = true) (hdriver : K.driverMode ≠ .hw)
    (hparse : parseCmdlineArgs env.args opts start = .ok s)
    (hparse' : parseCmdlineArgs env'.args opts' start = .ok s')
    (hdev : s.cfg.ifindex ≠ -1) (hsame : s'.cfg.ifindex = s.cfg.ifindex)
    (hload : s.cfg.doUnload = false ∧ s.cfg.unloadAll = false)
    (hunload : s'.cfg.doUnload = true ∧ s'.cfg.unloadAll = false)
    (hid : info.id = s'.cfg.progId) (hbtf : info.btf.isSome)
    (ha : Attachable order K (hosts s.cfg.ifindex) [prog] s.cfg.attachMode false)
    (hnodup : (((hosts s.cfg.ifindex).chain order).map Entry.id).Nodup)
    (hfresh : info.id ∉ ((hosts s.cfg.ifindex).chain order).map Entry.id)
    (hloads : LoadsOn order K env s.cfg prog info hosts hosts₁)
    (hunloads : UnloadsOn order K env' s'.cfg mp hosts₁ hosts₂) :
    (∀ argc, main env argc opts = ⟨exitOk, loadedText s.cfg info, [], none⟩) ∧
      (∀ argc, (main env' argc opts').ret = exitOk) ∧
      ((hosts₂ s.cfg.ifindex).chain order).Perm ((hosts s.cfg.ifindex).chain order) ∧
      ((hosts₂ s.cfg.ifindex).attached = none ↔ (hosts s.cfg.ifindex).chain order = []) ∧
      ∀ i, i ≠ s.cfg.ifindex → hosts₂ i = hosts i := by
  obtain ⟨prog', h₁, hfd, hcall, rfl⟩ := hloads.attach
  have hok := ha.host.of_granted hK hcall
  generalize hattach : env.attach prog s.cfg.ifindex s.cfg.attachMode = err at hcall
  have hself : Function.update hosts s.cfg.ifindex h₁ s'.cfg.ifindex = h₁ :=
    hsame ▸ Function.update_self ..
  cases ha.result hcall with
  | @replaced oldMp genv g new hshows hgen hnew =>
    have hmem := ((ha.chain_replaced hshows hgen new).map Entry.id).mem_iff.mpr (mem_joined hfd)
    -- what is looked up is the dispatcher in which the program has been put
    obtain ⟨id, mode, hattached, hread⟩ := hunloads.lookup
    rw [hself] at hattached hread
    cases Host.attached_replaced.symm.trans hattached
    obtain ⟨_, ⟨⟩, hshows₁⟩ := hread.shows hok hattached hnew.1
      (by rw [Host.dispatchers_replaced]; rfl)
    obtain ⟨q, -, hqid, hdetached, hret⟩ :=
      exists_detached hshows₁ hunloads.found hunload.2 hid hmem
    obtain ⟨q', hq', ps, h₂, hsameFd, hcall', rfl⟩ := hunloads.detach _ _ hdetached
    rw [attachMode_eq hshows₁ hattached] at hcall' hret
    rw [hself] at hcall'
    obtain ⟨hzero, hchain, hnone⟩ := chain_undone ha hdriver hnew.1 hshows hgen hfd hbtf hok hnodup
      hfresh ((progId_eq_of_loaded hsameFd).trans hqid) hcall'
    rw [hsame, Function.update_idem, Function.update_self]
    refine ⟨fun argc ↦ ?_, fun argc ↦ ?_, hchain, hnone, fun i hi ↦ Function.update_of_ne hi ..⟩
    · rw [main_eq_load hparse hdev hload]
      exact load_eq hloads.create hattach hloads.getInfo
    · rw [main_eq_unload hparse' (hsame ▸ hdev) hunload.1]
      exact unload_ret (hret.trans (by rw [hzero]; rfl))

def oneDevice : Environment where
  malloc := true
  ifNametoindex _ := 3
  errno _ := 19
  strerror _ := "No such device"
  atoi _ := 9

def granting (mp : XdpMultiprog) : PassEnv where
  args := oneDevice
  libxdp := ⟨fun _ ↦ .found (multiprogOf mp), fun _ ↦ 0, fun _ _ _ ↦ 0, fun _ ↦ ""⟩
  create := .ok passProgram
  attach _ _ _ := 0
  getInfo := .ok passInfo
  libxdpStrerror _ := ""
  strerror := ""

theorem exists_unloadsOn {id : UInt32} {mode : XdpAttachMode} (hh : hosts cfg.ifindex = h)
    (hattached : h.attached = some (id, mode)) (hread : Reads order h id mode .moved (.ok mp))
    (hshows : h.Shows order (some mp)) (hall : cfg.unloadAll = false) (hid : info.id = cfg.progId)
    (hmem : info.id ∈ (h.chain order).map Entry.id)
    (hcalls : ∀ q : XdpProgram, q.progId = info.id →
      ∃ h', Granted order K (.detachMulti [q] mode) 0 [q] h h') :
    ∃ hosts', UnloadsOn order K (granting mp) cfg mp hosts hosts' := by
  subst hh
  have hfound : (granting mp).libxdp.getFromIfindex cfg.ifindex = .found (multiprogOf mp) := rfl
  obtain ⟨q, hq, hqid, hdetached, -⟩ := exists_detached hshows hfound hall hid hmem
  obtain ⟨h', hcall⟩ := hcalls q hqid
  refine ⟨Function.update hosts cfg.ifindex h', ⟨id, mode, hattached, hread⟩, hfound,
    fun p mode' hp ↦ ?_⟩
  cases hdetached.symm.trans hp
  exact ⟨q, hq, [q], h', rfl, (attachMode_eq hshows hattached).symm ▸ hcall, rfl⟩

/-- The program joins another one that is attached, and can be taken away again. -/
theorem exists_joined : ∃ (h h₁ : Host) (mp : XdpMultiprog),
    h.chain .little = [⟨7, 50, 4, false⟩] ∧
    Attachable .little passKernel h [passProgram] .skb false ∧
    Granted .little passKernel (.attachMulti [passProgram] .skb false) 0
      [loadedBy passEnv passProgram] h h₁ ∧
    (h₁.chain .little).length = 2 ∧ passInfo.id ∈ (h₁.chain .little).map Entry.id ∧
    h₁.attached = some (2, .skb) ∧ Reads .little h₁ 2 .skb .moved (.ok mp) ∧
    h₁.Shows .little (some mp) ∧ ∀ q : XdpProgram, q.progId = passInfo.id →
      ∃ h', Granted .little passKernel (.detachMulti [q] .skb) 0 [q] h₁ h' := by
  obtain ⟨oldMp, g, hshows, hgen, hcall⟩ :=
    attachable_loadedProgram.granted grants_passEnv fresh_passKernel
  obtain rfl : oldMp = none := Option.map_eq_none_iff.mp hshows.attached.symm
  have hchain : (firstHost g).chain .little = [⟨7, 50, 4, false⟩] :=
    Host.chain_of_content (entries_first hgen ▸ Host.content_replaced ..)
  have ha : Attachable .little passKernel (firstHost g) [passProgram] .skb false :=
    attachable_attached (attachable_loadedProgram.host.of_granted rfl hcall) Host.attached_replaced
      (by decide) Host.dispatchers_replaced (btf_first hgen) (by decide)
      attachable_passProgram.nonempty attachable_passProgram.chained
      attachable_passProgram.linkable (by rw [entries_first hgen]; decide)
  obtain ⟨oldMp, g', hshows', hgen', hcall'⟩ :=
    ha.granted grants_passEnv (fresh_firstHost g 2 (by decide) (by decide))
  have hok := ha.host.of_granted rfl hcall'
  have hsome : ((((firstHost g).replaced oldMp 2 (g'.dispatcher .little)
      (passKernel.resolve .skb)).dispatchers 2)).isSome := by
    rw [Host.dispatchers_replaced]
    rfl
  obtain ⟨mp, hread⟩ := hok.exists_reads Host.attached_replaced hsome
  obtain ⟨_, ⟨⟩, hshows₁⟩ := hread.shows hok Host.attached_replaced (by decide) hsome
  have hfd : (loadedBy passEnv passProgram).progFd = some passInfo := rfl
  have hperm := ha.chain_replaced hshows' hgen' 2
  refine ⟨firstHost g, _, mp, hchain, ha, hcall', ?_, ?_, Host.attached_replaced, hread, hshows₁,
    fun q hq ↦ ?_⟩
  · rw [hperm.length_eq, hchain]
    rfl
  · exact (hperm.map Entry.id).mem_iff.mpr (mem_joined hfd)
  · have hd := detachable_joined ha (by decide) hshows' hgen' hfd rfl hok (by rw [hchain]; decide)
      (by rw [hchain]; decide) hq
    have hthree := fresh_firstHost g 3 (by decide) (by decide)
    exact hd.granted grants_passEnv
      ⟨hthree.1, Host.fresh_replaced (by decide) hthree.2.1 hthree.2.2⟩

theorem unload_undoes_load_first :
    ∃ (mp : XdpMultiprog) (cfg cfg' : Config) (hosts hosts₁ hosts₂ : Int32 → Host),
      LoadsOn .little passKernel (granting mp) cfg passProgram passInfo hosts hosts₁ ∧
      UnloadsOn .little passKernel (granting mp) cfg' mp hosts₁ hosts₂ ∧
      cfg.ifindex = 3 ∧ cfg'.ifindex = 3 ∧
      (main (granting mp) 4 [.dev (letters 4), .skbMode]).ret = exitOk ∧
      (main (granting mp) 5 [.dev (letters 4), .unload (letters 1)]).ret = exitOk ∧
      ((hosts 3).chain .little).map Entry.id = [7] ∧ ((hosts₁ 3).chain .little).length = 2 ∧
      ((hosts₂ 3).chain .little).map Entry.id = [7] := by
  obtain ⟨h, h₁, mp, hchain, ha, hcall, htwo, hmem, hattached, hread, hshows, hcalls⟩ :=
    exists_joined
  obtain ⟨s, hparse, hs⟩ : ∃ s, parseCmdlineArgs oneDevice [.dev (letters 4), .skbMode] start =
      .ok s ∧ s.cfg.ifindex = 3 ∧ s.cfg.attachMode = .skb ∧ s.cfg.doUnload = false ∧
      s.cfg.unloadAll = false := ⟨_, rfl, rfl, rfl, rfl, rfl⟩
  obtain ⟨s', hparse', hs'⟩ : ∃ s, parseCmdlineArgs oneDevice [.dev (letters 4),
      .unload (letters 1)] start = .ok s ∧ s.cfg.ifindex = 3 ∧ s.cfg.progId = 9 ∧
      s.cfg.doUnload = true ∧ s.cfg.unloadAll = false := ⟨_, rfl, rfl, rfl, rfl, rfl⟩
  obtain ⟨hosts, hhosts⟩ : ∃ hosts : Int32 → Host, hosts 3 = h :=
    ⟨Function.update (fun _ ↦ freshHost none) 3 h, Function.update_self ..⟩
  have hloads : LoadsOn .little passKernel (granting mp) s.cfg passProgram passInfo hosts
      (Function.update hosts 3 h₁) :=
    ⟨rfl, rfl, _, h₁, rfl, by rw [hs.1, hs.2.1, hhosts]; exact hcall, by rw [hs.1]⟩
  have hself : Function.update hosts 3 h₁ s'.cfg.ifindex = h₁ := by
    rw [hs'.1, Function.update_self]
  obtain ⟨hosts₂, hunloads⟩ :=
    exists_unloadsOn hself hattached hread hshows hs'.2.2.2 hs'.2.1.symm hmem hcalls
  have hhosts' : hosts s.cfg.ifindex = h := hs.1 ▸ hhosts
  obtain ⟨hload, hunload, hchain', -⟩ := unload_undoes_load rfl (by decide) hparse hparse'
    (hs.1 ▸ by decide) (hs'.1.trans hs.1.symm) hs.2.2 hs'.2.2 hs'.2.1.symm rfl
    (by rw [hs.2.1, hhosts']; exact ha) (by rw [hhosts', hchain]; decide)
    (by rw [hhosts', hchain]; decide) hloads hunloads
  rw [hhosts', hchain, hs.1] at hchain'
  refine ⟨mp, s.cfg, s'.cfg, hosts, _, hosts₂, hloads, hunloads, hs.1, hs'.1,
    congrArg Outcome.ret (hload 4), hunload 5, ?_, ?_, ?_⟩
  · rw [hhosts, hchain]
    rfl
  · rw [Function.update_self, htwo]
  · rw [List.perm_singleton.mp hchain']
    rfl

end Composition

end KernelBypass.Xdp.PassUser
