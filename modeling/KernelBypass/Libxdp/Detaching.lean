import KernelBypass.Libxdp.Attaching

namespace KernelBypass.Libxdp

open Common.CommonParams Common.MapFiles Foundation Collect

variable {order : ByteOrder} {K : Kernel} {h : Host} {c : Call} {mode : XdpAttachMode}

theorem Kernel.resolve_resolve : K.resolve (K.resolve mode) = K.resolve mode := by
  unfold Kernel.resolve
  split_ifs <;> simp_all

theorem Call.unpinnedOld_zero (replaced : Bool) : c.unpinnedOld replaced 0 = c.goto (.done 0) := by
  unfold Call.unpinnedOld
  split_ifs
  · rfl
  · split
    · rfl
    · exact if_neg (by decide)

/-- The rest of a call that leaves nothing in the place of the dispatcher that it has found. -/
theorem unload_run {mp : XdpMultiprog} (hpc : c.pc = .attach (some mp) none mp.attachMode)
    (hshows : h.Shows order (some mp)) (hmode : K.resolve mp.attachMode = mp.attachMode) :
    Completes order K h c 0 c.progs ((h.setAttached none).setPins mp.mainId none) := by
  obtain ⟨hid, hlegacy, -⟩ := hshows.dispatcher mp rfl
  have hattaches : K.Attaches h.attached none (some mp.mainId) mp.attachMode (.ok none) := by
    refine Kernel.Attaches.done fun _ ↦ ?_
    rw [hshows.attached, hmode]
    rfl
  refine ⟨[.moved, .moved], { c with applied := true, pc := .done 0 }, by simp, ?_, rfl, rfl⟩
  refine .cons (.attached hpc (fun mp' hmp' ↦ Option.some_inj.mp hmp' ▸ hid) hattaches) ?_
  rw [Call.attached_of_not_legacy hlegacy]
  have hunpin : Step order K .moved
      (h.setAttached none, .busy { c with applied := true, pc := .unpinOld mp false }) _ :=
    .unpinnedOld rfl
  rw [Call.unpinnedOld_zero] at hunpin
  exact .cons hunpin (.nil _)

theorem Returns.unload {Q : ℤ → List XdpProgram → Host → Prop} {mp : XdpMultiprog}
    (hpc : c.pc = .attach (some mp) none mode) (hshows : h.Shows order (some mp))
    (hq : Q 0 c.progs ((h.setAttached none).setPins mp.mainId none)) : Returns order K Q h c := by
  obtain ⟨hid, hlegacy, -⟩ := hshows.dispatcher mp rfl
  refine .attached hpc (fun mp' hmp' ↦ Option.some_inj.mp hmp' ▸ hid) ?_
  rw [Call.attached_of_not_legacy hlegacy]
  refine .unpinnedOld rfl ?_
  rw [Call.unpinnedOld_zero]
  exact .done rfl hq

/-- A call leaves the interface in order. -/
theorem Host.Ok.of_granted (hh : h.Ok order) (hK : K.replaces = true) {h' : Host} {r : Request}
    {err : ℤ} {progs : List XdpProgram} (hcall : Granted order K r err progs h h') :
    h'.Ok order := by
  obtain ⟨es, -, hrun⟩ := hcall.run
  have hinv := hrun.invariant (I := fun x ↦ x.1.Ok order ∧ x.2.Ok order x.1) (P := fun _ ↦ True)
    (fun _ _ _ _ hstep hx ↦ hstep.mover hK hx.1 hx.2) (fun _ _ ↦ trivial) ⟨hh, trivial⟩
  exact hinv.1

section MultiprogDetach

variable {id : UInt32}

end MultiprogDetach

variable {progs : List XdpProgram} {skip : Bool} {env : GenerateEnv} {new : UInt32}

/-- The conditions under which a call that takes programs away has no reason to fail. -/
structure Detachable (order : ByteOrder) (K : Kernel) (h : Host) (progs : List XdpProgram)
    (mode : XdpAttachMode) : Prop where
  host : h.Ok order
  software : mode ≠ .hw
  nonempty : progs ≠ []
  attached : ∃ id, h.attached = some (id, K.resolve mode) ∧ id ≠ 0 ∧ (h.dispatchers id).isSome
  btf : ∀ id d, h.attachedId = some id → h.dispatchers id = some d →
    ∀ info ∈ d.linked, info.btf.isSome
  found : ∀ prog ∈ progs, prog.progId ≠ 0 ∧ prog.progId ∈ (h.chain order).map Entry.id
  distinct : (progs.map XdpProgram.progId).Nodup
  chain : ((h.chain order).map Entry.id).Nodup

theorem Detachable.resolve {progs : List XdpProgram} {mode : XdpAttachMode}
    (hd : Detachable order K h progs mode) (hdriver : K.driverMode ≠ .hw) :
    Detachable order K h progs (K.resolve mode) where
  host := hd.host
  software := by
    unfold Kernel.resolve
    split_ifs
    · exact hdriver
    · exact hd.software
  nonempty := hd.nonempty
  attached := by
    rw [Kernel.resolve_resolve]
    exact hd.attached
  btf := hd.btf
  found := hd.found
  distinct := hd.distinct
  chain := hd.chain

theorem Attachable.chain_replaced {oldMp : Option XdpMultiprog} {g : Generated}
    (ha : Attachable order K h progs mode skip) (hshows : h.Shows order oldMp)
    (hgen : generate env progs oldMp false = .ok g) (new : UInt32) :
    ((h.replaced oldMp new (g.dispatcher order) (K.resolve mode)).chain order).Perm
      (h.chain order ++ progs.map (joined env)) := by
  rw [Host.chain_of_content (Host.content_replaced ..), hshows.chain_eq]
  exact (generate_adds order hgen fun mp hmp prog hprog ↦
    (hshows.linkable ha.btf mp hmp prog hprog).1).2

theorem Attachable.btf_linked {oldMp : Option XdpMultiprog} {g : Generated}
    (ha : Attachable order K h progs mode skip) (hshows : h.Shows order oldMp)
    (hgen : generate env progs oldMp false = .ok g)
    (hbtf : ∀ prog ∈ progs, ∀ info, (loadedBy env prog).progFd = some info → info.btf.isSome) :
    ∀ info ∈ g.linked, info.btf.isSome := by
  refine btf_of_generate hgen fun prog hprog info hinfo ↦ ?_
  cases oldMp with
  | none => exact hbtf prog hprog info hinfo
  | some mp =>
    rcases List.mem_append.mp hprog with hmem | hmem
    · obtain ⟨hloaded, hlink⟩ := hshows.linkable ha.btf mp rfl prog hmem
      rw [loadedBy_of_loaded hloaded] at hinfo
      exact (hlink.loaded info hinfo).btf
    · exact hbtf prog hmem info hinfo

/-- What has been attached can be taken away again. -/
theorem Attachable.detachable {oldMp : Option XdpMultiprog} {g : Generated} {gone : List XdpProgram}
    (ha : Attachable order K h progs mode skip) (hnew : new ≠ 0)
    (hshows : h.Shows order oldMp) (hgen : generate env progs oldMp false = .ok g)
    (hbtf : ∀ prog ∈ progs, ∀ info, (loadedBy env prog).progFd = some info → info.btf.isSome)
    (hok : (h.replaced oldMp new (g.dispatcher order) (K.resolve mode)).Ok order)
    (hchain : ((h.chain order ++ progs.map (joined env)).map Entry.id).Nodup) (hgone : gone ≠ [])
    (hdistinct : (gone.map XdpProgram.progId).Nodup)
    (hfound : ∀ prog ∈ gone, prog.progId ≠ 0 ∧
      prog.progId ∈ (h.chain order ++ progs.map (joined env)).map Entry.id) :
    Detachable order K (h.replaced oldMp new (g.dispatcher order) (K.resolve mode)) gone mode := by
  have hperm := ha.chain_replaced hshows hgen new
  refine ⟨hok, ha.software, hgone, ⟨new, Host.attached_replaced, hnew, ?_⟩, fun id d hid hd ↦ ?_,
    fun prog hprog ↦ ⟨(hfound prog hprog).1, ?_⟩, hdistinct, ?_⟩
  · rw [Host.dispatchers_replaced]
    rfl
  · rw [Host.attachedId, Host.attached_replaced] at hid
    obtain rfl : new = id := Option.some_inj.mp hid
    obtain rfl := Option.some_inj.mp (Host.dispatchers_replaced.symm.trans hd)
    exact ha.btf_linked hshows hgen hbtf
  · exact (hperm.map Entry.id).mem_iff.mpr (hfound prog hprog).2
  · exact (hperm.map Entry.id).nodup_iff.mpr hchain

theorem map_id_chain {mp : XdpMultiprog} (hshows : h.Shows order (some mp)) :
    (h.chain order).map Entry.id = mp.progs.map XdpProgram.progId := by
  rw [hshows.chain_eq, oldEntries, List.map_map]
  rfl

theorem Host.Shows.length_le {mp : XdpMultiprog} (hshows : h.Shows order (some mp)) :
    mp.progs.length ≤ maxDispatcherActions := by
  obtain ⟨-, -, -, d, ps, -, hcarries, hread⟩ := hshows.dispatcher mp rfl
  exact hread.length_eq ▸ hcarries.length_le

theorem Detachable.countNamed_eq (hd : Detachable order K h progs mode) {mp : XdpMultiprog}
    (hshows : h.Shows order (some mp)) : countNamed progs mp = progs.length := by
  refine countNamed_eq_length ?_ hd.distinct fun q hq ↦ ?_
  · exact map_id_chain hshows ▸ hd.chain
  · exact map_id_chain hshows ▸ (hd.found q hq).2

/-- As many programs are left as there are others. -/
theorem Detachable.length_rest (hd : Detachable order K h progs mode) {mp : XdpMultiprog}
    (hshows : h.Shows order (some mp)) :
    ((h.chain order).filter fun e ↦ ∀ q ∈ progs, q.progId ≠ e.id).length + progs.length =
      mp.progs.length := by
  rw [hshows.chain_eq, oldEntries, List.filter_map, List.length_map, ← hd.countNamed_eq hshows]
  exact length_kept progs mp

theorem Detachable.detachPlan_eq (hd : Detachable order K h progs mode) {mp : XdpMultiprog}
    (hshows : h.Shows order (some mp)) (hmode : mp.attachMode = K.resolve mode) :
    detachPlan progs mp mode =
      .ok (if progs.length = mp.numLinks then .unload mp.attachMode else .replace) := by
  have hlegacy := (hshows.dispatcher mp rfl).2.1
  have hsame : ¬ (mode ≠ .unspec ∧ mp.attachMode ≠ mode) := by
    rintro ⟨hne, hother⟩
    exact hother (hmode.trans (if_neg hne))
  obtain ⟨checked, hchecked⟩ : ∃ checked, progs.mapM (checkAttached mp) = .ok checked := by
    refine exists_mapM_eq_ok_iff.mpr fun prog hprog ↦ ⟨(), ?_⟩
    obtain ⟨hid, hmem⟩ := hd.found prog hprog
    obtain ⟨p, hp, hpid⟩ := List.mem_map.mp (map_id_chain hshows ▸ hmem)
    simp only [checkAttached, bind_eq_ok_iff, failIf_eq_ok_iff]
    exact ⟨(), hid, fun hall ↦ hall p hp hpid⟩
  rw [detachPlan, if_neg (by rw [hlegacy]; decide)]
  simp only [bind_eq_ok_iff, failIf_eq_ok_iff]
  exact ⟨(), hsame, checked, hchecked, rfl⟩

theorem Detachable.lookedUp_eq (hd : Detachable order K h progs mode) {mp : XdpMultiprog}
    (hshows : h.Shows order (some mp)) (hmode : mp.attachMode = K.resolve mode) :
    (Call.start (.detachMulti progs mode)).lookedUp (.ok mp) =
      (Call.start (.detachMulti progs mode)).goto (if progs.length = mp.numLinks then
        .attach (some mp) none mp.attachMode else .generate (some mp)) := by
  rw [Call.lookedUp]
  dsimp only [Call.start]
  rw [hd.detachPlan_eq hshows hmode]
  split_ifs <;> rfl

theorem Detachable.exists_generate (hd : Detachable order K h progs mode) (henv : env.Grants)
    {mp : XdpMultiprog} (hshows : h.Shows order (some mp)) :
    ∃ g, generate env progs (some mp) true = .ok g := by
  obtain ⟨-, hlegacy, hversion, -⟩ := hshows.dispatcher mp rfl
  exact henv.exists_generate_remove hd.nonempty ⟨hlegacy, hversion⟩ (hd.countNamed_eq hshows)
    hshows.length_le fun prog hprog ↦ (hshows.linkable hd.btf mp rfl prog hprog).2

theorem Detachable.granted (hd : Detachable order K h progs mode) (henv : env.Grants)
    (hnew : new ≠ 0 ∧ h.dispatchers new = none ∧ ¬ h.seen new) :
    ∃ h', Granted order K (.detachMulti progs mode) 0 progs h h' := by
  obtain ⟨id, hattached, hid, hsome⟩ := hd.attached
  obtain ⟨es, mp, hes, hshows, rfl, hmode, hlookup⟩ := lookup_run_attached (K := K)
    (c := .start (.detachMulti progs mode)) hd.host (if_neg hd.nonempty) hattached hid hsome
  rw [hd.lookedUp_eq hshows hmode] at hlookup
  split_ifs at hlookup with hall
  · have hunload := unload_run (K := K) (c := (Call.start (.detachMulti progs mode)).goto
      (.attach (some mp) none mp.attachMode)) rfl hshows (hmode ▸ Kernel.resolve_resolve)
    exact ⟨_, granted_iff.mpr ⟨hd.software, hunload.after hes hlookup⟩⟩
  · obtain ⟨g, hgen⟩ := hd.exists_generate henv hshows
    have hreplace := replace_run (K := K)
      (c := (Call.start (.detachMulti progs mode)).goto (.generate (some mp))) rfl hshows hgen hnew
      fun mp' hmp' ↦ Option.some_inj.mp hmp' ▸ hmode
    exact ⟨_, granted_iff.mpr ⟨hd.software, hreplace.after hes hlookup⟩⟩

inductive DetachResult (order : ByteOrder) (K : Kernel) (h : Host) (progs : List XdpProgram)
    (mode : XdpAttachMode) : ℤ → List XdpProgram → Host → Prop
  | unloaded {mp : XdpMultiprog} (hshows : h.Shows order (some mp))
      (hall : progs.length = mp.numLinks) :
      DetachResult order K h progs mode 0 progs ((h.setAttached none).setPins mp.mainId none)
  | replaced {mp : XdpMultiprog} {env : GenerateEnv} {g : Generated} {new : UInt32}
      (hshows : h.Shows order (some mp)) (hrest : progs.length ≠ mp.numLinks)
      (hgen : generate env progs (some mp) true = .ok g) :
      DetachResult order K h progs mode 0 progs
        (h.replaced (some mp) new (g.dispatcher order) (K.resolve mode))

theorem Detachable.result (hd : Detachable order K h progs mode) {err : ℤ}
    {progs' : List XdpProgram} {h' : Host}
    (hcall : Granted order K (.detachMulti progs mode) err progs' h h') :
    DetachResult order K h progs mode err progs' h' := by
  obtain ⟨id, hattached, hid, hsome⟩ := hd.attached
  have hreturns : Returns order K (DetachResult order K h progs mode) h
      (.start (.detachMulti progs mode)) := by
    refine .lookup hd.host (if_neg hd.nonempty) (fun a ha ↦ ?_) fun oldMp hshows ↦ ?_
    · obtain rfl := Option.some_inj.mp (ha.symm.trans hattached)
      exact ⟨hid, hsome⟩
    · obtain ⟨mp, rfl, hmp⟩ := Option.map_eq_some_iff.mp (hshows.attached.symm.trans hattached)
      rw [Option.elim_some, hd.lookedUp_eq hshows (Prod.mk.inj hmp).2]
      split_ifs with hall
      · exact .unload rfl hshows (.unloaded hshows hall)
      · refine .replace rfl hshows (fun env henv ↦ hd.exists_generate henv hshows) ?_
        exact fun env g new hgen _ ↦ .replaced hshows hall hgen
  exact hreturns err progs' h' (granted_iff.mp hcall).2

theorem Detachable.chain_eq (hd : Detachable order K h progs mode) {err : ℤ}
    {progs' : List XdpProgram} {h' : Host} (hres : DetachResult order K h progs mode err progs' h') :
    err = 0 ∧
      (h'.chain order).Perm ((h.chain order).filter fun e ↦ ∀ q ∈ progs, q.progId ≠ e.id) ∧
      (h'.attached = none ↔
        ((h.chain order).filter fun e ↦ ∀ q ∈ progs, q.progId ≠ e.id) = []) := by
  cases hres with
  | @unloaded mp hshows hall =>
    have hlinks := mp.linked (hshows.dispatcher mp rfl).2.1
    have hlen := hd.length_rest hshows
    have hempty := List.eq_nil_of_length_eq_zero (l := (h.chain order).filter fun e ↦
      ∀ q ∈ progs, q.progId ≠ e.id) (by omega)
    exact ⟨rfl, .of_eq hempty.symm, iff_of_true rfl hempty⟩
  | @replaced mp env g new hshows hrest hgen =>
    have hlinks := mp.linked (hshows.dispatcher mp rfl).2.1
    have hlen := hd.length_rest hshows
    obtain ⟨hperm, -⟩ := generate_removes order hgen fun prog hprog ↦
      (hshows.linkable hd.btf mp rfl prog hprog).1
    refine ⟨rfl, ?_, iff_of_false (fun h' ↦ nomatch h') fun hempty ↦ ?_⟩
    · rw [Host.chain_of_content (Host.content_replaced ..), hshows.chain_eq]
      exact hperm
    · rw [hempty] at hlen
      have hzero : 0 + progs.length = mp.progs.length := hlen
      omega

/-- A call that takes programs of the chain away, with nothing refused to it and nobody
interfering, returns 0, the chain has all others, and nothing is attached any more where there
are none. -/
theorem detach_undisturbed (hd : Detachable order K h progs mode) :
    (∀ err progs' h', Granted order K (.detachMulti progs mode) err progs' h h' → err = 0 ∧
      (h'.chain order).Perm ((h.chain order).filter fun e ↦ ∀ q ∈ progs, q.progId ≠ e.id) ∧
      (h'.attached = none ↔ ∀ e ∈ h.chain order, ∃ q ∈ progs, q.progId = e.id)) ∧
    ∀ env new, GenerateEnv.Grants env → (new ≠ 0 ∧ h.dispatchers new = none ∧ ¬ h.seen new) →
      ∃ h', Granted order K (.detachMulti progs mode) 0 progs h h' := by
  refine ⟨fun err progs' h' hcall ↦ ?_, fun env new henv hnew ↦ hd.granted henv hnew⟩
  obtain ⟨rfl, hchain, hnone⟩ := hd.chain_eq (hd.result hcall)
  refine ⟨rfl, hchain, hnone.trans ?_⟩
  rw [List.filter_eq_nil_iff]
  simp

theorem detach_undisturbed_two : ∃ h h', (h.chain .little).length = 2 ∧
    Granted .little passKernel (.detachMulti [loadedProgram 7 (by decide)] .skb) 0
      [loadedProgram 7 (by decide)] h h' ∧ (h'.chain .little).map Entry.id = [8] := by
  have ha := attachable_twoPrograms
  obtain ⟨oldMp, g, hshows, hgen, hcall⟩ := ha.granted grants_passEnv fresh_passKernel
  obtain rfl : oldMp = none := Option.map_eq_none_iff.mp hshows.attached.symm
  have hperm := (generate_adds .little hgen fun _ hmp ↦ nomatch hmp).2
  have hd : Detachable .little passKernel _ [loadedProgram 7 (by decide)] .skb :=
    ha.detachable (by decide) hshows hgen
      (fun prog hprog _ ↦ grants_passEnv.btf_loadedBy (ha.linkable prog hprog))
      (ha.host.of_granted rfl hcall) (by decide) (List.cons_ne_nil _ _) (by decide) (by decide)
  have hne : (2 : UInt32) ≠ 0 ∧ (2 : UInt32) ≠ 1 := by decide
  obtain ⟨hall, hex⟩ := detach_undisturbed hd
  obtain ⟨h', hcall'⟩ := hex passEnv 2 grants_passEnv
    ⟨hne.1, Host.fresh_replaced hne.2 rfl fun hseen ↦ nomatch hseen⟩
  obtain ⟨-, hchain, -⟩ := hall 0 _ h' hcall'
  rw [Host.chain_of_content (Host.content_replaced ..)] at hchain
  refine ⟨_, h', ?_, hcall', List.perm_singleton.mp ?_⟩
  · rw [Host.chain_of_content (Host.content_replaced ..), hperm.length_eq]
    rfl
  · exact (hchain.trans (hperm.filter _)).map Entry.id

end KernelBypass.Libxdp
