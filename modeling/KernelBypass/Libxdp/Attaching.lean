import KernelBypass.Libxdp.Granted

namespace KernelBypass.Libxdp

open Common.CommonParams Common.MapFiles Foundation Collect

variable {order : ByteOrder} {K : Kernel} {h : Host} {c : Call}

section Lookup

/-- What a lookup finds on an interface where nothing or a dispatcher is attached. -/
structure Host.Shows (order : ByteOrder) (h : Host) (oldMp : Option XdpMultiprog) : Prop where
  attached : h.attached = oldMp.map fun mp ↦ (mp.mainId, mp.attachMode)
  dispatcher : ∀ mp ∈ oldMp, mp.mainId ≠ 0 ∧ mp.isLegacy = false ∧
    mp.version = xdpDispatcherVersion ∧ ∃ d progs, h.dispatchers mp.mainId = some d ∧
      d.Carries order progs ∧ List.Forall₂ ReadBack progs mp.progs

section Dispatchers

variable {id : UInt32} {mode : XdpAttachMode}

/-- The dispatcher that is attached is read whole. -/
theorem Reads.shows (hh : h.Ok order) (hattached : h.attached = some (id, mode)) (hid : id ≠ 0)
    (hsome : (h.dispatchers id).isSome) {r : Except ℤ XdpMultiprog}
    (hread : Reads order h id mode .moved r) :
    ∃ mp, r = .ok mp ∧ h.Shows order (some mp) := by
  cases hread with
  | @dispatcher d mp hd hmp =>
    obtain ⟨progs, hcarries⟩ := hh.carries id d hd
    have hpins : h.pins id = some d.files :=
      hh.attached id d (by rw [Host.attachedId, hattached]; rfl) hd
    obtain ⟨hid', hmode, hprogs⟩ := hcarries.fillFromFd_eq_ok (hh.agrees_files hd) hmp
    obtain ⟨mp', hmp', hlegacy, hversion⟩ := hcarries.fillFromFd_files id mode
    rw [hpins] at hmp
    cases hmp.symm.trans hmp'
    refine ⟨mp, rfl, ?_, ?_⟩
    · rw [hattached, Option.map_some, hid', hmode]
    · rintro _ ⟨⟩
      rw [hid']
      exact ⟨hid, hlegacy, hversion, d, progs, hd, hcarries, hprogs hlegacy⟩
  | other hother =>
    rw [hother] at hsome
    cases hsome

theorem Host.Ok.exists_reads (hh : h.Ok order) (hattached : h.attached = some (id, mode))
    (hsome : (h.dispatchers id).isSome) : ∃ mp, Reads order h id mode .moved (.ok mp) := by
  obtain ⟨d, hd⟩ := Option.isSome_iff_exists.mp hsome
  obtain ⟨progs, hcarries⟩ := hh.carries id d hd
  obtain ⟨mp, hmp, -⟩ := hcarries.fillFromFd_files id mode
  refine ⟨mp, .dispatcher hd ?_⟩
  rw [hh.attached id d (by rw [Host.attachedId, hattached]; rfl) hd, hmp]

theorem Call.queried_some (hid : id ≠ 0) :
    c.queried 0 0 (some (id, mode)) = c.goto (.getFd 0 id mode) := if_neg hid

end Dispatchers

theorem lookup_run (hh : h.Ok order) (hpc : c.pc = .query 0 0)
    (hattached : ∀ a ∈ h.attached, a.1 ≠ 0 ∧ (h.dispatchers a.1).isSome) :
    ∃ es oldMp, (∀ e ∈ es, e = Event.moved) ∧ h.Shows order oldMp ∧
      Trace (Step order K) es (h, .busy c)
        (h, .busy (c.lookedUp (oldMp.elim (.error (-enoent)) .ok))) := by
  cases ha : h.attached with
  | none =>
    refine ⟨[.moved], none, by simp, ⟨ha, fun _ hmp ↦ nomatch hmp⟩, .cons (.queried hpc) ?_⟩
    rw [ha]
    exact .nil _
  | some a =>
    obtain ⟨id, mode⟩ := a
    obtain ⟨hid, hsome⟩ := hattached (id, mode) ha
    obtain ⟨mp, hread⟩ := hh.exists_reads ha hsome
    obtain ⟨_, ⟨⟩, hshows⟩ := hread.shows hh ha hid hsome
    refine ⟨[.moved, .moved, .moved], some mp, by simp, hshows, .cons (.queried hpc) ?_⟩
    rw [ha, Call.queried_some hid]
    exact .cons (.gotFd rfl) (.cons (.read rfl hread) (.nil _))

/-- A lookup that is granted finds what is attached. -/
theorem Returns.lookup {Q : ℤ → List XdpProgram → Host → Prop} (hh : h.Ok order)
    (hpc : c.pc = .query 0 0)
    (hattached : ∀ a ∈ h.attached, a.1 ≠ 0 ∧ (h.dispatchers a.1).isSome)
    (hq : ∀ oldMp, h.Shows order oldMp →
      Returns order K Q h (c.lookedUp (oldMp.elim (.error (-enoent)) .ok))) :
    Returns order K Q h c := by
  refine .queried hpc ?_
  cases ha : h.attached with
  | none => exact hq none ⟨ha, fun _ hmp ↦ nomatch hmp⟩
  | some a =>
    obtain ⟨id, mode⟩ := a
    obtain ⟨hid, hsome⟩ := hattached (id, mode) ha
    rw [Call.queried_some hid]
    refine .gotFd rfl (.read rfl fun r hread ↦ ?_)
    obtain ⟨mp, rfl, hshows⟩ := hread.shows hh ha hid hsome
    exact hq (some mp) hshows

/-- Where a dispatcher is attached it is found. -/
theorem lookup_run_attached {id : UInt32} {mode : XdpAttachMode} (hh : h.Ok order)
    (hpc : c.pc = .query 0 0) (hattached : h.attached = some (id, mode)) (hid : id ≠ 0)
    (hd : (h.dispatchers id).isSome) :
    ∃ es mp, (∀ e ∈ es, e = Event.moved) ∧ h.Shows order (some mp) ∧ mp.mainId = id ∧
      mp.attachMode = mode ∧
      Trace (Step order K) es (h, .busy c) (h, .busy (c.lookedUp (.ok mp))) := by
  obtain ⟨es, oldMp, hes, hshows, hlookup⟩ := lookup_run (K := K) hh hpc fun a ha ↦ by
    obtain rfl : a = (id, mode) := Option.some_inj.mp (ha.symm.trans hattached)
    exact ⟨hid, hd⟩
  obtain ⟨mp, rfl, hmp⟩ := Option.map_eq_some_iff.mp (hshows.attached.symm.trans hattached)
  exact ⟨es, mp, hes, hshows, (Prod.mk.inj hmp).1, (Prod.mk.inj hmp).2, hlookup⟩

end Lookup

section Attach

theorem Call.attached_of_not_legacy {mp : XdpMultiprog} {new : Option UInt32}
    (hlegacy : mp.isLegacy = false) : c.attached (some mp) new =
      { c with applied := true, pc := .unpinOld mp new.isSome } := by
  rw [Call.attached, if_neg (by rw [hlegacy]; decide)]
  rfl

def Host.prepared (h : Host) (new : UInt32) (d : Dispatcher) : Host :=
  (h.load new d).setPins new (some d.files)

def Host.committed (h : Host) (oldMp : Option XdpMultiprog) (new : UInt32) (mode : XdpAttachMode) :
    Host :=
  match oldMp with
  | none => h.setAttached (some (new, mode))
  | some mp => (h.setAttached (some (new, mode))).setPins mp.mainId none

def Host.replaced (h : Host) (oldMp : Option XdpMultiprog) (new : UInt32) (d : Dispatcher)
    (mode : XdpAttachMode) : Host :=
  (h.prepared new d).committed oldMp new mode

theorem Host.attached_replaced {oldMp : Option XdpMultiprog} {new : UInt32} {d : Dispatcher}
    {mode : XdpAttachMode} : (h.replaced oldMp new d mode).attached = some (new, mode) := by
  cases oldMp <;> rfl

theorem Host.dispatchers_replaced {oldMp : Option XdpMultiprog} {new : UInt32} {d : Dispatcher}
    {mode : XdpAttachMode} : (h.replaced oldMp new d mode).dispatchers new = some d := by
  cases oldMp <;> exact Host.dispatchers_load_self

theorem Host.fresh_replaced {oldMp : Option XdpMultiprog} {new id : UInt32} {d : Dispatcher}
    {mode : XdpAttachMode} (hne : id ≠ new) (hid : h.dispatchers id = none) (hseen : ¬ h.seen id) :
    (h.replaced oldMp new d mode).dispatchers id = none ∧
      ¬ (h.replaced oldMp new d mode).seen id := by
  have hload : (h.load new d).dispatchers id = none := (Host.dispatchers_load_of_ne hne).trans hid
  have hother : ¬ (h.seen id ∨ (some new : Option UInt32) = some id) :=
    not_or.mpr ⟨hseen, fun heq ↦ hne (Option.some_inj.mp heq).symm⟩
  cases oldMp <;> exact ⟨hload, hother⟩

theorem Host.content_replaced (oldMp : Option XdpMultiprog) (new : UInt32) (d : Dispatcher)
    (mode : XdpAttachMode) :
    (h.replaced oldMp new d mode).content order = some ⟨new, some (d.entries order)⟩ := by
  have hid : (h.replaced oldMp new d mode).attachedId = some new := by
    rw [Host.attachedId, Host.attached_replaced]
    rfl
  rw [Host.content_of_attached hid, Host.dispatchers_replaced]
  rfl

variable {progs : List XdpProgram} {mode : XdpAttachMode} {skip : Bool}
  {oldMp : Option XdpMultiprog} {env : GenerateEnv} {g : Generated} {new : UInt32}

theorem prepare_run (hpc : c.pc = .generate oldMp)
    (hgen : generate env c.progs oldMp c.request.removeProgs = .ok g)
    (hnew : new ≠ 0 ∧ h.dispatchers new = none ∧ ¬ h.seen new) :
    Trace (Step order K) [.moved, .moved] (h, .busy c) (h.prepared new (g.dispatcher order), .busy
      { c with progs := c.linkedBy env, pc := .attach oldMp (some new) c.request.mode }) := by
  refine .cons (.generated hpc hgen hnew) ?_
  exact .cons (.pinned rfl Host.dispatchers_load_self) (.nil _)

variable (order) in
theorem commit_run (hpc : c.pc = .attach oldMp (some new) mode)
    (hattached : h.attached = oldMp.map fun mp ↦ (mp.mainId, mp.attachMode))
    (hold : ∀ mp ∈ oldMp, mp.mainId ≠ 0 ∧ mp.isLegacy = false ∧ mp.attachMode = K.resolve mode) :
    Completes order K h c 0 c.progs (h.committed oldMp new (K.resolve mode)) := by
  have hne : ∀ mp ∈ oldMp, mp.mainId ≠ 0 := fun mp hmp ↦ (hold mp hmp).1
  have hattaches : K.Attaches h.attached (some new) (oldMp.map XdpMultiprog.mainId) mode
      (.ok ((some new).map (·, K.resolve mode))) := by
    refine .done fun _ ↦ ?_
    rw [hattached, Option.map_map]
    exact Option.map_congr fun mp hmp ↦ congrArg (mp.mainId, ·) (hold mp hmp).2.2
  cases oldMp with
  | none =>
    refine ⟨[.moved], { c with applied := true, pc := .done 0 }, by simp, ?_, rfl, rfl⟩
    exact .cons (.attached hpc hne hattaches) (.nil _)
  | some mp =>
    refine ⟨[.moved, .moved], { c with applied := true, pc := .done 0 }, by simp, ?_, rfl, rfl⟩
    refine .cons (.attached hpc hne hattaches) ?_
    rw [Call.attached_of_not_legacy (hold mp rfl).2.1]
    exact .cons (.unpinnedOld rfl) (.nil _)

/-- The rest of a call that puts a new dispatcher in the place of what it has found. -/
theorem replace_run (hpc : c.pc = .generate oldMp) (hshows : h.Shows order oldMp)
    (hgen : generate env c.progs oldMp c.request.removeProgs = .ok g)
    (hnew : new ≠ 0 ∧ h.dispatchers new = none ∧ ¬ h.seen new)
    (hmode : ∀ mp ∈ oldMp, mp.attachMode = K.resolve c.request.mode) :
    Completes order K h c 0 (c.linkedBy env)
      (h.replaced oldMp new (g.dispatcher order) (K.resolve c.request.mode)) := by
  have hcommit := commit_run order (K := K) (h := h.prepared new (g.dispatcher order))
    (c := { c with progs := c.linkedBy env, pc := .attach oldMp (some new) c.request.mode }) rfl
    hshows.attached fun mp hmp ↦
      ⟨(hshows.dispatcher mp hmp).1, (hshows.dispatcher mp hmp).2.1, hmode mp hmp⟩
  exact hcommit.after (by simp) (prepare_run hpc hgen hnew)

/-- However such a call goes on, it puts a new dispatcher there and returns 0. -/
theorem Returns.replace {Q : ℤ → List XdpProgram → Host → Prop} (hpc : c.pc = .generate oldMp)
    (hshows : h.Shows order oldMp)
    (hgen : ∀ env : GenerateEnv, env.Grants →
      ∃ g, generate env c.progs oldMp c.request.removeProgs = .ok g)
    (hq : ∀ env g new, generate env c.progs oldMp c.request.removeProgs = .ok g →
      (new ≠ 0 ∧ h.dispatchers new = none ∧ ¬ h.seen new) → Q 0 (c.linkedBy env)
        (h.replaced oldMp new (g.dispatcher order) (K.resolve c.request.mode))) :
    Returns order K Q h c := by
  refine .generated hpc hgen fun env g new hg hnew ↦ ?_
  refine .pinned rfl Host.dispatchers_load_self ?_
  refine .attached rfl (fun mp hmp ↦ (hshows.dispatcher mp hmp).1) ?_
  cases oldMp with
  | none => exact .done rfl (hq env g new hg hnew)
  | some mp =>
    rw [Call.attached_of_not_legacy (hshows.dispatcher mp rfl).2.1]
    exact .unpinnedOld rfl (.done rfl (hq env g new hg hnew))

def Host.chain (order : ByteOrder) (h : Host) : List Entry :=
  (h.attachedId.bind h.dispatchers).elim [] (Dispatcher.entries order)

theorem Host.chain_of_content {id : UInt32} {l : List Entry}
    (hcontent : h.content order = some ⟨id, some l⟩) : h.chain order = l := by
  obtain ⟨id', hid, hchain⟩ := Option.map_eq_some_iff.mp hcontent
  obtain ⟨d, hd, rfl⟩ := Option.map_eq_some_iff.mp (Attachment.mk.inj hchain).2
  rw [Host.chain, hid, Option.bind_some, hd, Option.elim_some]

theorem Host.Shows.chain_eq (hshows : h.Shows order oldMp) : h.chain order = oldEntries oldMp := by
  cases oldMp with
  | none =>
    rw [Host.chain, Host.attachedId, hshows.attached]
    rfl
  | some mp =>
    obtain ⟨-, -, -, d, ps, hd, hcarries, hread⟩ := hshows.dispatcher mp rfl
    rw [Host.chain, Host.attachedId, hshows.attached]
    change (h.dispatchers mp.mainId).elim [] _ = _
    rw [hd, Option.elim_some, hcarries.entries_eq]
    exact map_eq_map_of_forall₂ hread fun _ _ hq ↦ hq.entry.symm

/-- Programs with type information can be read from their dispatcher and linked to a new one. -/
theorem Host.Shows.linkable (hshows : h.Shows order oldMp)
    (hbtf : ∀ id d, h.attachedId = some id → h.dispatchers id = some d →
      ∀ info ∈ d.linked, info.btf.isSome) :
    ∀ mp ∈ oldMp, ∀ prog ∈ mp.progs, prog.progFd.isSome ∧ Linkable prog := by
  rintro mp ⟨⟩
  obtain ⟨-, -, -, d, ps, hd, hcarries, hread⟩ := hshows.dispatcher mp rfl
  have hid : h.attachedId = some mp.mainId := by
    rw [Host.attachedId, hshows.attached]
    rfl
  have hloaded : ∀ p ∈ ps, ∃ info ∈ d.linked, Readable p info :=
    forall_mem_of_forall₂ hcarries.linked.flip fun info hinfo p hp ↦ ⟨info, hinfo, hp⟩
  refine forall_mem_of_forall₂ hread fun p hp q hq ↦ ?_
  obtain ⟨info, hinfo, hreadable⟩ := hloaded p hp
  have hfd : q.progFd = some info := hq.fd.trans hreadable.fd
  refine ⟨hfd ▸ rfl, ?_, fun hnone ↦ ?_, fun info' hinfo' ↦ ?_⟩
  · rw [hq.btf info hreadable.fd]
    exact hbtf mp.mainId d hid hd info hinfo
  · cases hfd.symm.trans hnone
  · obtain rfl := Option.some_inj.mp (hfd.symm.trans hinfo')
    exact ⟨hbtf mp.mainId d hid hd info hinfo, hreadable.fromFd⟩

/-- The conditions under which a call that attaches programs has no reason to fail. -/
structure Attachable (order : ByteOrder) (K : Kernel) (h : Host) (progs : List XdpProgram)
    (mode : XdpAttachMode) (skip : Bool) : Prop where
  host : h.Ok order
  software : mode ≠ .hw
  nonempty : progs ≠ []
  chained : ¬ (progs.length = 1 ∧ skip = true)
  linkable : ∀ prog ∈ progs, Linkable prog
  attached : ∀ a ∈ h.attached, a.1 ≠ 0 ∧ a.2 = K.resolve mode ∧ (h.dispatchers a.1).isSome
  btf : ∀ id d, h.attachedId = some id → h.dispatchers id = some d →
    ∀ info ∈ d.linked, info.btf.isSome
  length_le : (h.chain order).length + progs.length ≤ maxDispatcherActions

theorem Attachable.linkable_selected (ha : Attachable order K h progs mode skip)
    (hshows : h.Shows order oldMp) : ∀ prog ∈ selected progs oldMp false, Linkable prog := by
  cases oldMp with
  | none => exact ha.linkable
  | some mp =>
    intro prog hprog
    rcases List.mem_append.mp hprog with hmem | hmem
    · exact (hshows.linkable ha.btf mp rfl prog hmem).2
    · exact ha.linkable prog hmem

theorem Attachable.exists_generate (ha : Attachable order K h progs mode skip) (henv : env.Grants)
    (hshows : h.Shows order oldMp) : ∃ g, generate env progs oldMp false = .ok g := by
  refine henv.exists_generate ha.nonempty (fun mp hmp ↦ ?_) ?_ (ha.linkable_selected hshows)
  · exact ⟨(hshows.dispatcher mp hmp).2.1, (hshows.dispatcher mp hmp).2.2.1⟩
  · have hlen := ha.length_le
    rw [hshows.chain_eq, oldEntries, List.length_map] at hlen
    cases oldMp with
    | none => simpa [selected] using hlen
    | some mp => simpa [selected] using hlen

theorem Attachable.attachMode_eq (ha : Attachable order K h progs mode skip)
    (hshows : h.Shows order oldMp) : ∀ mp ∈ oldMp, mp.attachMode = K.resolve mode := by
  intro mp hmp
  refine (ha.attached (mp.mainId, mp.attachMode) ?_).2.1
  rw [hshows.attached, hmp]
  rfl

theorem Attachable.lookedUp_eq (ha : Attachable order K h progs mode skip)
    (oldMp : Option XdpMultiprog) :
    (Call.start (.attachMulti progs mode skip)).lookedUp (oldMp.elim (.error (-enoent)) .ok) =
      (Call.start (.attachMulti progs mode skip)).goto (.generate oldMp) := by
  have htoOption : (oldMp.elim (.error (-enoent)) .ok : Except ℤ XdpMultiprog).toOption = oldMp := by
    cases oldMp <;> rfl
  exact (if_neg ha.chained).trans (by rw [htoOption])

theorem Attachable.begin_run (ha : Attachable order K h progs mode skip) :
    ∃ es oldMp, (∀ e ∈ es, e = Event.moved) ∧ h.Shows order oldMp ∧
      Trace (Step order K) es (h, .busy (.start (.attachMulti progs mode skip)))
        (h, .busy ((Call.start (.attachMulti progs mode skip)).goto (.generate oldMp))) := by
  obtain ⟨es, oldMp, hes, hshows, hlookup⟩ :=
    lookup_run (K := K) (c := .start (.attachMulti progs mode skip)) ha.host (if_neg ha.nonempty)
      fun a ha' ↦ ⟨(ha.attached a ha').1, (ha.attached a ha').2.2⟩
  rw [ha.lookedUp_eq] at hlookup
  exact ⟨es, oldMp, hes, hshows, hlookup⟩

theorem Attachable.granted (ha : Attachable order K h progs mode skip) (henv : env.Grants)
    (hnew : new ≠ 0 ∧ h.dispatchers new = none ∧ ¬ h.seen new) :
    ∃ oldMp g, h.Shows order oldMp ∧ generate env progs oldMp false = .ok g ∧
      Granted order K (.attachMulti progs mode skip) 0 (progs.map (loadedBy env)) h
        (h.replaced oldMp new (g.dispatcher order) (K.resolve mode)) := by
  obtain ⟨es, oldMp, hes, hshows, hbegin⟩ := ha.begin_run
  obtain ⟨g, hgen⟩ := ha.exists_generate henv hshows
  have hreplace := replace_run (K := K)
    (c := (Call.start (.attachMulti progs mode skip)).goto (.generate oldMp)) rfl hshows hgen hnew
    (ha.attachMode_eq hshows)
  exact ⟨oldMp, g, hshows, hgen, granted_iff.mpr ⟨ha.software, hreplace.after hes hbegin⟩⟩

inductive AttachResult (order : ByteOrder) (K : Kernel) (h : Host) (progs : List XdpProgram)
    (mode : XdpAttachMode) : ℤ → List XdpProgram → Host → Prop
  | replaced {oldMp : Option XdpMultiprog} {env : GenerateEnv} {g : Generated} {new : UInt32}
      (hshows : h.Shows order oldMp) (hgen : generate env progs oldMp false = .ok g)
      (hnew : new ≠ 0 ∧ h.dispatchers new = none ∧ ¬ h.seen new) :
      AttachResult order K h progs mode 0 (progs.map (loadedBy env))
        (h.replaced oldMp new (g.dispatcher order) (K.resolve mode))

theorem Attachable.result (ha : Attachable order K h progs mode skip) {err : ℤ}
    {progs' : List XdpProgram} {h' : Host}
    (hcall : Granted order K (.attachMulti progs mode skip) err progs' h h') :
    AttachResult order K h progs mode err progs' h' := by
  have hreturns : Returns order K (AttachResult order K h progs mode) h
      (.start (.attachMulti progs mode skip)) := by
    refine .lookup ha.host (if_neg ha.nonempty)
      (fun a ha' ↦ ⟨(ha.attached a ha').1, (ha.attached a ha').2.2⟩) fun oldMp hshows ↦ ?_
    rw [ha.lookedUp_eq]
    refine .replace rfl hshows (fun env henv ↦ ha.exists_generate henv hshows) ?_
    exact fun env g new hgen hnew ↦ .replaced hshows hgen hnew
  exact hreturns err progs' h' (granted_iff.mp hcall).2

def passKernel : Kernel := ⟨.native, true⟩

theorem attachable_fresh (hprogs : progs ≠ []) (hlink : ∀ prog ∈ progs, Linkable prog)
    (hlen : progs.length ≤ maxDispatcherActions) :
    Attachable .little passKernel (freshHost none) progs .skb false where
  host := (protocolOutline_fresh (κ := Unit) none).shared
  software := by decide
  nonempty := hprogs
  chained hskip := nomatch hskip.2
  linkable := hlink
  attached _ ha := nomatch ha
  btf _ _ hid := nomatch hid
  length_le := (Nat.zero_add progs.length).symm ▸ hlen

theorem attachable_passProgram :
    Attachable .little passKernel (freshHost none) [passProgram] .skb false :=
  attachable_fresh (List.cons_ne_nil passProgram [])
    (List.forall_mem_singleton.mpr linkable_passProgram) (by decide)

theorem fresh_passKernel :
    (1 : UInt32) ≠ 0 ∧ (freshHost none).dispatchers 1 = none ∧ ¬ (freshHost none).seen 1 :=
  ⟨by decide, rfl, fun hseen ↦ nomatch hseen⟩

theorem attachable_twoPrograms :
    Attachable .little passKernel (freshHost none) twoPrograms .skb false :=
  attachable_fresh (List.cons_ne_nil _ _) linkable_twoPrograms (by decide)

/-- A run in which one process attaches programs to an interface where nothing is. -/
theorem Attachable.exists_run (ha : Attachable .little passKernel (freshHost none) progs .skb false) :
    ∃ (rest : List (Turn Unit Event (Option (UInt32 × XdpAttachMode)))) (h : Host)
      (l added : List Entry), Trace (Interleaved (Step .little passKernel) Foreign)
        (.party () (.called (.attachMulti progs .skb false)) :: rest)
        (freshHost none, fun _ ↦ .idle) (h, fun _ ↦ .idle) ∧
      (∀ turn ∈ rest, turn = .party () .moved ∨ turn = .party () (.returned 0)) ∧
      h.content .little = some ⟨1, some l⟩ ∧ List.Forall₂ Joins progs added ∧ l.Perm added := by
  obtain ⟨oldMp, g, hshows, hgen, hcall⟩ := ha.granted grants_passEnv fresh_passKernel
  obtain ⟨es, hes, hrun⟩ := hcall.run
  obtain rfl : oldMp = none := Option.map_eq_none_iff.mp hshows.attached.symm
  obtain ⟨hadded, hperm⟩ := generate_adds .little hgen fun _ hmp ↦ nomatch hmp
  have hsolo : Trace (Interleaved (Step .little passKernel) Foreign) _
      (freshHost none, fun _ : Unit ↦ .idle) (_, fun _ ↦ .idle) :=
    hrun.solo () rfl (Function.update_eq_self_iff.mpr rfl)
  refine ⟨_, _, _, _, hsolo, fun turn hturn ↦ ?_, Host.content_replaced none 1 _ _, hadded,
    hperm⟩
  obtain ⟨e, he, rfl⟩ := List.mem_map.mp hturn
  rcases List.mem_append.mp he with he | he
  · exact Or.inl (by rw [hes e he])
  · exact Or.inr (by rw [List.mem_singleton.mp he])

end Attach

section Race

variable {progs : List XdpProgram} {mode : XdpAttachMode} {skip : Bool} {env : GenerateEnv}
  {g : Generated} {new : UInt32} {err : ℤ}

def Host.abandoned (h : Host) (new : UInt32) (d : Dispatcher) : Host :=
  (h.prepared new d).setPins new none

/-- A call that has found nothing attached, and is refused because something is by now, removes
its files and returns the error. -/
theorem lose_run (mode : XdpAttachMode) (skip : Bool) (hgen : generate env progs none false = .ok g)
    (hnew : new ≠ 0 ∧ h.dispatchers new = none ∧ ¬ h.seen new) (herr : err ≠ 0 ∧ err ≠ -eagain) :
    Trace (Step order K) [.moved, .moved, .refused, .moved, .returned err]
      (h, .busy ((Call.start (.attachMulti progs mode skip)).goto (.generate none)))
      (h.abandoned new (g.dispatcher order), .idle) := by
  have hprepare : Trace (Step order K) [.moved, .moved] _ _ := prepare_run
    (c := (Call.start (.attachMulti progs mode skip)).goto (.generate none)) rfl hgen hnew
  refine Trace.append_iff.mpr ⟨_, hprepare, .cons (.attachFailed rfl (.refused herr.1)) ?_⟩
  refine .cons (.unpinnedNew rfl) (.cons (.returned ?_) (.nil _))
  have hother : attachError none err = err := if_neg fun hold ↦ nomatch hold.2
  rw [Option.map_none, hother, Call.retryOr, if_neg herr.2]
  rfl

theorem Host.Shows.loaded {oldMp : Option XdpMultiprog} (hshows : h.Shows order oldMp) :
    ∀ mp ∈ oldMp, ∀ prog ∈ mp.progs, prog.progFd.isSome ∧ prog.bpfProg = none := by
  rintro mp ⟨⟩
  obtain ⟨-, -, -, d, ps, -, hcarries, hread⟩ := hshows.dispatcher mp rfl
  have hloaded : ∀ p ∈ ps, p.progFd.isSome :=
    forall_mem_of_forall₂ hcarries.linked.flip fun _ _ _ hp ↦ hp.fd ▸ rfl
  exact forall_mem_of_forall₂ hread fun p hp q hq ↦ ⟨hq.fd ▸ hloaded p hp, hq.object⟩

theorem Host.dispatchers_abandoned {id : UInt32} {d : Dispatcher} (hne : id ≠ new) :
    (h.abandoned new d).dispatchers id = h.dispatchers id := Host.dispatchers_load_of_ne hne

theorem Host.fresh_abandoned {id : UInt32} {d : Dispatcher} (hne : id ≠ new)
    (hid : id ≠ 0 ∧ h.dispatchers id = none ∧ ¬ h.seen id) :
    id ≠ 0 ∧ (h.abandoned new d).dispatchers id = none ∧ ¬ (h.abandoned new d).seen id :=
  ⟨hid.1, (Host.dispatchers_abandoned hne).trans hid.2.1, hid.2.2⟩

theorem Host.content_abandoned {d : Dispatcher} (hne : h.attachedId ≠ some new) :
    (h.abandoned new d).content order = h.content order := Host.content_load hne

/-- Programs can be attached in addition to those of a dispatcher. -/
theorem attachable_attached {id : UInt32} {d : Dispatcher} (hok : h.Ok order)
    (hattached : h.attached = some (id, K.resolve mode)) (hid : id ≠ 0)
    (hd : h.dispatchers id = some d) (hbtf : ∀ info ∈ d.linked, info.btf.isSome) (hmode : mode ≠ .hw)
    (hprogs : progs ≠ []) (hchained : ¬ (progs.length = 1 ∧ skip = true))
    (hlink : ∀ prog ∈ progs, Linkable prog)
    (hlen : (d.entries order).length + progs.length ≤ maxDispatcherActions) :
    Attachable order K h progs mode skip := by
  have hattachedId : h.attachedId = some id := by
    rw [Host.attachedId, hattached]
    rfl
  refine ⟨hok, hmode, hprogs, hchained, hlink, fun a ha ↦ ?_, fun id' d' hid' hd' ↦ ?_, ?_⟩
  · obtain rfl := Option.some_inj.mp (hattached.symm.trans ha)
    exact ⟨hid, rfl, hd ▸ rfl⟩
  · obtain rfl : id = id' := Option.some_inj.mp (hattachedId.symm.trans hid')
    obtain rfl := Option.some_inj.mp (hd.symm.trans hd')
    exact hbtf
  · rwa [Host.chain, hattachedId, Option.bind_some, hd, Option.elim_some]

def Event.Attaching : Event → Prop
  | .called r => ∃ prog, r = .attachMulti [prog] .skb false
  | .moved | .refused | .returned _ => True
  | .impaired | .died => False

theorem attaching_of_moved {es : List Event} (hes : ∀ e ∈ es, e = Event.moved) (prog : XdpProgram) :
    (∀ e ∈ Event.called (.attachMulti [prog] .skb false) :: es, e.Attaching) ∧
      ∀ e ∈ Event.called (.attachMulti [prog] .skb false) :: (es ++ [.returned 0]), e.Attaching := by
  have hmoved : ∀ e ∈ es, e.Attaching := fun e he ↦ hes e he ▸ trivial
  refine ⟨List.forall_mem_cons.mpr ⟨⟨prog, rfl⟩, hmoved⟩, List.forall_mem_cons.mpr ⟨⟨prog, rfl⟩, ?_⟩⟩
  exact List.forall_mem_append.mpr ⟨hmoved, List.forall_mem_singleton.mpr trivial⟩

theorem attachable_loadedProgram :
    Attachable .little passKernel (freshHost none) [loadedProgram 7 (by decide)] .skb false :=
  attachable_fresh (List.cons_ne_nil _ _)
    (List.forall_mem_singleton.mpr (linkable_loadedProgram 7 _)) (by decide)

theorem attachable_earlyProgram :
    Attachable .little passKernel (freshHost none) [earlyProgram 8 (by decide)] .skb false :=
  attachable_fresh (List.cons_ne_nil _ _)
    (List.forall_mem_singleton.mpr (linkable_earlyProgram 8 _)) (by decide)

def firstHost (g : Generated) : Host := (freshHost none).replaced none 1 (g.dispatcher .little) .skb

theorem fresh_firstHost (g : Generated) (id : UInt32) (hzero : id ≠ 0) (hone : id ≠ 1) :
    id ≠ 0 ∧ (firstHost g).dispatchers id = none ∧ ¬ (firstHost g).seen id :=
  ⟨hzero, Host.fresh_replaced hone rfl fun hseen ↦ nomatch hseen⟩

theorem attaching_turns {es : List Event} (hes : ∀ e ∈ es, e.Attaching) (k : Bool) :
    ∀ turn ∈ es.map (Turn.party k : Event → Turn Bool Event (Option (UInt32 × XdpAttachMode))),
      ∃ k e, turn = .party k e ∧ e.Attaching := by
  intro turn hturn
  obtain ⟨e, he, rfl⟩ := List.mem_map.mp hturn
  exact ⟨k, e, rfl, hes e he⟩

/-- Two processes attach a program each. One of them has just found nothing attached when the
other one attaches its program. -/
theorem exists_overtaken :
    ∃ (turns : List (Turn Bool Event (Option (UInt32 × XdpAttachMode)))) (g : Generated),
      generate passEnv [loadedProgram 7 (by decide)] none false = .ok g ∧
      Trace (Interleaved (Step .little passKernel) Foreign) turns (freshHost none, fun _ ↦ .idle)
        (firstHost g, Function.update (fun _ ↦ .idle) true (.busy ((Call.start
          (.attachMulti [earlyProgram 8 (by decide)] .skb false)).goto (.generate none)))) ∧
      ∀ turn ∈ turns, ∃ k e, turn = .party k e ∧ e.Attaching := by
  obtain ⟨es, oldMp, hes, hshows, hbegin⟩ := attachable_earlyProgram.begin_run
  obtain rfl : oldMp = none := Option.map_eq_none_iff.mp hshows.attached.symm
  have hlook : Trace (Interleaved (Step .little passKernel) Foreign) _
      (freshHost none, fun _ ↦ .idle) (freshHost none, Function.update (fun _ ↦ .idle) true _) :=
    (Trace.cons (.called (by decide)) hbegin).solo true rfl rfl
  obtain ⟨oldMp, g, hshows, hgen, hcall⟩ :=
    attachable_loadedProgram.granted grants_passEnv fresh_passKernel
  obtain rfl : oldMp = none := Option.map_eq_none_iff.mp hshows.attached.symm
  obtain ⟨es', hes', hrun⟩ := hcall.run
  refine ⟨_, g, hgen, Trace.append_iff.mpr ⟨_, hlook,
    hrun.solo false rfl (Function.update_eq_self_iff.mpr rfl)⟩, ?_⟩
  exact List.forall_mem_append.mpr ⟨attaching_turns (attaching_of_moved hes _).1 true,
    attaching_turns (attaching_of_moved hes' _).2 false⟩

theorem entries_first {g : Generated}
    (hgen : generate passEnv [loadedProgram 7 (by decide)] none false = .ok g) :
    (g.dispatcher .little).entries .little = [⟨7, 50, 4, false⟩] :=
  List.perm_singleton.mp (generate_adds .little hgen fun _ hmp ↦ nomatch hmp).2

theorem btf_first {g : Generated}
    (hgen : generate passEnv [loadedProgram 7 (by decide)] none false = .ok g) :
    ∀ info ∈ (g.dispatcher .little).linked, info.btf.isSome :=
  btf_of_generate hgen fun prog hprog _ ↦
    grants_passEnv.btf_loadedBy (attachable_loadedProgram.linkable prog hprog)

/-- The second process is refused when it comes to attach its dispatcher. -/
theorem exists_refused (g₁ : Generated) :
    ∃ (turns : List (Turn Bool Event (Option (UInt32 × XdpAttachMode)))) (g : Generated),
      Trace (Interleaved (Step .little passKernel) Foreign) turns
        (firstHost g₁, Function.update (fun _ ↦ .idle) true (.busy ((Call.start
          (.attachMulti [earlyProgram 8 (by decide)] .skb false)).goto (.generate none))))
        ((firstHost g₁).abandoned 2 (g.dispatcher .little), fun _ ↦ .idle) ∧
      (∀ turn ∈ turns, ∃ k e, turn = .party k e ∧ e.Attaching) ∧
      .party true (.returned (-ebusy)) ∈ turns := by
  have hnone : (freshHost none).Shows .little none := ⟨rfl, fun _ hmp ↦ nomatch hmp⟩
  obtain ⟨g, hgen⟩ := attachable_earlyProgram.exists_generate grants_passEnv hnone
  have hlost : Trace (Step .little passKernel) [.moved, .moved, .refused, .moved, .returned (-ebusy)]
      _ _ := lose_run .skb false hgen (fresh_firstHost g₁ 2 (by decide) (by decide)) (by decide)
  refine ⟨_, g, hlost.solo true (Function.update_self ..) ?_, attaching_turns ?_ true, ?_⟩
  · rw [Function.update_idem]
    exact Function.update_eq_self_iff.mpr rfl
  · simp [Event.Attaching]
  · exact List.mem_map_of_mem (by simp)

/-- Then it makes its call again. -/
theorem exists_race : ∃ (turns turns' : List (Turn Bool Event (Option (UInt32 × XdpAttachMode))))
    (h₁ h₂ : Host) (c : Call),
    Trace (Interleaved (Step .little passKernel) Foreign) turns (freshHost none, fun _ ↦ .idle)
      (h₁, Function.update (fun _ ↦ .idle) true (.busy c)) ∧
    Trace (Interleaved (Step .little passKernel) Foreign) turns'
      (h₁, Function.update (fun _ ↦ .idle) true (.busy c)) (h₂, fun _ ↦ .idle) ∧
    (∀ turn ∈ turns ++ turns', ∃ k e, turn = .party k e ∧ e.Attaching) ∧
    .party true (.returned (-ebusy)) ∈ turns' ∧
    h₁.content .little = some ⟨1, some [⟨7, 50, 4, false⟩]⟩ ∧
    h₂.content .little = some ⟨3, some [⟨8, 10, 6, false⟩, ⟨7, 50, 4, false⟩]⟩ := by
  have hb := attachable_earlyProgram
  obtain ⟨turns, g₁, hgen₁, hfirst, hturns⟩ := exists_overtaken
  obtain ⟨turns', g, hlose, hturns', hbusy⟩ := exists_refused g₁
  have hentries₁ := entries_first hgen₁
  have hcontent₁ : (firstHost g₁).content .little = some ⟨1, some [⟨7, 50, 4, false⟩]⟩ :=
    hentries₁ ▸ Host.content_replaced ..
  have hok := ((protocolOutline_stable rfl).run (Trace.append_iff.mpr ⟨_, hfirst, hlose⟩)
    (protocolOutline_fresh none)).shared
  have hne : (1 : UInt32) ≠ 2 := by decide
  have hc : Attachable .little passKernel _ [earlyProgram 8 (by decide)] .skb false :=
    attachable_attached hok Host.attached_replaced (by decide)
      ((Host.dispatchers_abandoned hne).trans Host.dispatchers_replaced) (btf_first hgen₁)
      (by decide) hb.nonempty hb.chained hb.linkable (by rw [hentries₁]; decide)
  have hthree := Host.fresh_abandoned (d := g.dispatcher .little) (by decide : (3 : UInt32) ≠ 2)
    (fresh_firstHost g₁ 3 (by decide) (by decide))
  obtain ⟨oldMp₂, g₂, hshows₂, hgen₂, hcall₂⟩ := hc.granted grants_passEnv hthree
  obtain ⟨es₂, hes₂, hrun₂⟩ := hcall₂.run
  have hagain := Trace.append_iff.mpr
    ⟨_, hlose, hrun₂.solo true rfl (Function.update_eq_self_iff.mpr rfl)⟩
  have hchain₂ : oldEntries oldMp₂ = [⟨7, 50, 4, false⟩] := by
    have hid : (firstHost g₁).attachedId ≠ some 2 := (by decide : some (1 : UInt32) ≠ some 2)
    rw [← hshows₂.chain_eq]
    exact Host.chain_of_content ((Host.content_abandoned hid).trans hcontent₁)
  have hperm₂ := (generate_adds .little hgen₂ fun mp hmp prog hprog ↦
    (hshows₂.loaded mp hmp prog hprog).1).2
  rw [hchain₂] at hperm₂
  have hentries₂ := eq_pair_of_sorted hperm₂
    (generate_sorted .little hgen₂ hshows₂.loaded fun _ ↦ sizesAgree_singleton _) (by decide)
  refine ⟨turns, _, _, _, _, hfirst, hagain, ?_, ?_, hcontent₁,
    (Host.content_replaced ..).trans (by rw [hentries₂]; rfl)⟩
  · simp only [List.forall_mem_append]
    exact ⟨hturns, hturns', attaching_turns (attaching_of_moved hes₂ _).2 true⟩
  · exact List.mem_append_left _ hbusy

end Race

end KernelBypass.Libxdp
