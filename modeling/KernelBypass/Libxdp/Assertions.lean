import KernelBypass.Libxdp.Protocol

namespace KernelBypass.Libxdp

open Common.CommonParams Common.MapFiles Foundation Collect

section Loading

variable {prog prog' prog'' : XdpProgram} {env : GenerateEnv}

structure Loads (prog prog' : XdpProgram) : Prop where
  kept : ∀ info ∈ prog.progFd, prog'.progFd = some info
  prio : prog'.runPrio = prog.runPrio
  actions : prog'.chainCallActions = prog.chainCallActions
  frags : prog'.xdpFragsSupport = prog.xdpFragsSupport
  name : prog'.progName = prog.progName
  object : prog'.bpfProg = prog.bpfProg

theorem Loads.refl (prog : XdpProgram) : Loads prog prog := ⟨fun _ h ↦ h, rfl, rfl, rfl, rfl, rfl⟩

theorem Loads.trans (h : Loads prog prog') (h' : Loads prog' prog'') : Loads prog prog'' where
  kept info hinfo := h'.kept info (h.kept info hinfo)
  prio := h'.prio.trans h.prio
  actions := h'.actions.trans h.actions
  frags := h'.frags.trans h.frags
  name := h'.name.trans h.name
  object := h'.object.trans h.object

theorem Loads.joins {e : Entry} (h : Loads prog prog') (he : Joins prog' e) : Joins prog e where
  kept info hinfo := he.kept info (h.kept info hinfo)
  prio := he.prio.trans h.prio
  actions := he.actions.trans h.actions
  frags := he.frags.trans h.frags

theorem loads_loadedBy (env : GenerateEnv) (prog : XdpProgram) : Loads prog (loadedBy env prog) := by
  cases hload : ensureLoaded env prog with
  | error err =>
    rw [loadedBy, hload]
    exact .refl prog
  | ok loaded =>
    rw [loadedBy, hload]
    obtain rfl | ⟨hnone, -, info, rfl⟩ := ensureLoaded_eq_ok hload
    · exact .refl loaded
    · refine ⟨fun info' hinfo ↦ ?_, rfl, rfl, XdpProgram.xdpFragsSupport_of_loaded rfl, rfl, rfl⟩
      cases hnone.symm.trans hinfo

end Loading

/-- The dispatcher that a call has at its own disposal: one that it has made and that is not
attached yet, or one that it has taken from the interface. -/
def Pc.holds : Pc → Option UInt32
  | .pin _ new => some new
  | .attach _ new _ => new
  | .unpinNew new _ => some new
  | .unpinOld mp _ => some mp.mainId
  | _ => none

def Client.holds : Client → Option UInt32
  | .busy c => c.pc.holds
  | _ => none

variable (order : ByteOrder)

section Assertions

structure Knows (h : Host) (mp : XdpMultiprog) : Prop where
  loaded : mp.isLegacy = false → ∀ prog ∈ mp.progs, prog.progFd.isSome ∧ prog.bpfProg = none
  entries : mp.isLegacy = false → mp.mainId ≠ 0 → ∃ d, h.dispatchers mp.mainId = some d ∧
    d.entries order = mp.progs.map XdpProgram.entry

def Found (progs : List XdpProgram) (l : List Entry) : Prop :=
  ∀ prog ∈ progs, ∃ e ∈ l, e.id = prog.progId

/-- The entries of the dispatcher that a request puts in the place of an old one. -/
def Makes (r : Request) (oldMp : Option XdpMultiprog) (l : List Entry) : Prop :=
  match r with
  | .attachMulti progs _ _ =>
    ∃ es, List.Forall₂ Joins progs es ∧ l.Perm (oldEntries oldMp ++ es)
  | .detachMulti progs _ =>
    oldMp.isSome ∧ Found progs (oldEntries oldMp) ∧
      l.Perm ((oldEntries oldMp).filter fun e ↦ ∀ q ∈ progs, q.progId ≠ e.id) ∧
      l.length + progs.length = (oldEntries oldMp).length
  | .multiprogDetach => False

structure Prepared (h : Host) (r : Request) (oldMp : Option XdpMultiprog) (new : UInt32) :
    Prop where
  old : ∀ mp ∈ oldMp, Knows order h mp ∧ mp.isLegacy = false
  made : ∃ d, h.dispatchers new = some d ∧ Makes r oldMp (d.entries order)

def Asks (r : Request) (oldMp : Option XdpMultiprog) : Prop :=
  match r with
  | .attachMulti _ _ _ => True
  | .detachMulti progs _ => oldMp.isSome ∧ Found progs (oldEntries oldMp)
  | .multiprogDetach => False

def Unloads (r : Request) (mp : XdpMultiprog) : Prop :=
  match r with
  | .attachMulti _ _ _ => False
  | .detachMulti progs _ =>
    (mp.isLegacy = true ∧ ∃ prog, progs = [prog] ∧ prog.progId = mp.mainId) ∨
      (mp.isLegacy = false ∧ Found progs (oldEntries (some mp)) ∧
        progs.length = (oldEntries (some mp)).length)
  | .multiprogDetach => True

structure Call.Pending (c : Call) : Prop where
  progs : List.Forall₂ Loads c.request.progs c.progs
  removed : c.request.removeProgs = true → c.progs = c.request.progs
  applied : c.applied = false

def Host.Spare (h : Host) (id : UInt32) : Prop :=
  (h.dispatchers id).isSome ∧ h.attachedId ≠ some id

def Call.OkAt (h : Host) (c : Call) : Pc → Prop
  | .query _ _ => c.Pending
  | .getFd _ _ _ => c.Pending
  | .read _ _ _ => c.Pending
  | .generate oldMp => c.Pending ∧ (∀ mp ∈ oldMp, Knows order h mp) ∧ Asks c.request oldMp
  | .attachSingle => c.Pending ∧ c.request.removeProgs = false ∧ c.progs.length = 1
  | .pin oldMp new =>
    c.Pending ∧ Prepared order h c.request oldMp new ∧ h.Spare new ∧ ¬ h.seen new ∧
      h.pins new = none
  | .attach oldMp (some new) _ =>
    c.Pending ∧ Prepared order h c.request oldMp new ∧ h.Spare new ∧ ¬ h.seen new ∧
      h.pins new = (h.dispatchers new).map Dispatcher.files
  | .attach oldMp none _ =>
    c.Pending ∧ ∃ mp, oldMp = some mp ∧ Knows order h mp ∧ Unloads c.request mp
  | .unpinNew new err => c.Pending ∧ err ≠ 0 ∧ h.Spare new
  | .unpinOld mp replaced =>
    c.applied = true ∧ h.Spare mp.mainId ∧ (replaced = false → c.request.removeProgs = true)
  | .done err =>
    (err = 0 → c.applied = true) ∧
      (c.applied = true → err = 0 ∨ c.request.removeProgs = true)

def Call.Ok (h : Host) (c : Call) : Prop := c.OkAt order h c.pc

structure Host.Ok (h : Host) : Prop where
  carries : ∀ id d, h.dispatchers id = some d → ∃ progs, d.Carries order progs
  agrees : ∀ id dir, h.pins id = some dir → ∃ d, h.dispatchers id = some d ∧ Agrees dir d.files
  attached : ∀ id d, h.attachedId = some id → h.dispatchers id = some d → h.pins id = some d.files
  seen : ∀ id, h.attachedId = some id → h.seen id

def Client.Ok (h : Host) : Client → Prop
  | .busy c => c.Ok order h
  | _ => True

/-- No dispatcher is at the disposal of two clients. -/
def protocolOutline : Outline Host Client where
  shared := Host.Ok order
  party := Client.Ok order
  between l m := ∀ id, l.holds = some id → m.holds ≠ some id

end Assertions

variable {order}

section Frame

variable {h h' : Host} {c : Call} {l l' m : Client}

theorem Knows.mono {mp : XdpMultiprog} (hmp : Knows order h mp)
    (hgrows : ∀ id d, h.dispatchers id = some d → h'.dispatchers id = some d) :
    Knows order h' mp where
  loaded := hmp.loaded
  entries hlegacy hid := by
    obtain ⟨d, hd, hentries⟩ := hmp.entries hlegacy hid
    exact ⟨d, hgrows _ _ hd, hentries⟩

theorem Prepared.mono {r : Request} {oldMp : Option XdpMultiprog} {new : UInt32}
    (hp : Prepared order h r oldMp new)
    (hgrows : ∀ id d, h.dispatchers id = some d → h'.dispatchers id = some d) :
    Prepared order h' r oldMp new where
  old mp hmp := ⟨(hp.old mp hmp).1.mono hgrows, (hp.old mp hmp).2⟩
  made := by
    obtain ⟨d, hd, hmakes⟩ := hp.made
    exact ⟨d, hgrows _ _ hd, hmakes⟩

theorem Host.Spare.mono {id : UInt32} (hid : h.Spare id)
    (hgrows : ∀ id d, h.dispatchers id = some d → h'.dispatchers id = some d)
    (hattached : h'.attachedId ≠ some id) : h'.Spare id := by
  obtain ⟨d, hd⟩ := Option.isSome_iff_exists.mp hid.1
  exact ⟨Option.isSome_iff_exists.mpr ⟨d, hgrows _ _ hd⟩, hattached⟩

theorem Call.Ok.at_pc (hc : c.Ok order h) {pc : Pc} (hpc : c.pc = pc) : c.OkAt order h pc :=
  hpc ▸ hc

theorem Call.Ok.spare (hc : c.Ok order h) {id : UInt32} (hid : c.pc.holds = some id) :
    h.Spare id := by
  unfold Call.Ok at hc
  cases hpc : c.pc with
  | query | getFd | read | generate | attachSingle | done =>
    rw [hpc] at hid
    cases hid
  | pin oldMp new =>
    rw [hpc] at hid hc
    cases hid
    exact hc.2.2.1
  | attach oldMp new mode =>
    rw [hpc] at hid hc
    cases hid
    exact hc.2.2.1
  | unpinNew new err =>
    rw [hpc] at hid hc
    cases hid
    exact hc.2.2
  | unpinOld mp replaced =>
    rw [hpc] at hid hc
    cases hid
    exact hc.2.1

/-- A call goes on as before as long as nobody touches the dispatcher that it holds. -/
theorem Call.Ok.frame (hc : c.Ok order h)
    (hgrows : ∀ id d, h.dispatchers id = some d → h'.dispatchers id = some d)
    (hpins : ∀ id, c.pc.holds = some id → h'.pins id = h.pins id)
    (hattached : ∀ id, c.pc.holds = some id → h'.attachedId ≠ some id)
    (hseen : ∀ id, c.pc.holds = some id → h'.seen id → h.seen id) : c.Ok order h' := by
  unfold Call.Ok at hc ⊢
  cases hpc : c.pc with
  | query | getFd | read | attachSingle | done =>
    rw [hpc] at hc
    exact hc
  | generate oldMp =>
    rw [hpc] at hc
    exact ⟨hc.1, fun mp hmp ↦ (hc.2.1 mp hmp).mono hgrows, hc.2.2⟩
  | pin oldMp new =>
    rw [hpc] at hc hpins hattached hseen
    obtain ⟨hpending, hprepared, hspare, hunseen, hnone⟩ := hc
    exact ⟨hpending, hprepared.mono hgrows, hspare.mono hgrows (hattached new rfl),
      mt (hseen new rfl) hunseen, (hpins new rfl).trans hnone⟩
  | attach oldMp new mode =>
    rw [hpc] at hc hpins hattached hseen
    cases new with
    | none =>
      obtain ⟨hpending, mp, hmp, hknows, hunloads⟩ := hc
      exact ⟨hpending, mp, hmp, hknows.mono hgrows, hunloads⟩
    | some new =>
      obtain ⟨hpending, hprepared, hspare, hunseen, hfiles⟩ := hc
      obtain ⟨d, hd⟩ := Option.isSome_iff_exists.mp hspare.1
      refine ⟨hpending, hprepared.mono hgrows, hspare.mono hgrows (hattached new rfl),
        mt (hseen new rfl) hunseen, ?_⟩
      rw [hpins new rfl, hfiles, hd, hgrows new d hd]
  | unpinNew new err =>
    rw [hpc] at hc hattached
    exact ⟨hc.1, hc.2.1, hc.2.2.mono hgrows (hattached new rfl)⟩
  | unpinOld mp replaced =>
    rw [hpc] at hc hattached
    exact ⟨hc.1, hc.2.1.mono hgrows (hattached _ rfl), hc.2.2⟩

end Frame

section Checks

variable {progs : List XdpProgram} {mp : XdpMultiprog} {mode : XdpAttachMode}

theorem found_of_checkAttached {us : List Unit} (h : progs.mapM (checkAttached mp) = .ok us) :
    Found progs (oldEntries (some mp)) := by
  intro prog hprog
  obtain ⟨u, hu⟩ := exists_mapM_eq_ok_iff.mp ⟨us, h⟩ prog hprog
  simp only [checkAttached, bind_eq_ok_iff, failIf_eq_ok_iff] at hu
  obtain ⟨_, -, hfound⟩ := hu
  push Not at hfound
  obtain ⟨p, hp, hid⟩ := hfound
  exact ⟨p.entry, List.mem_map_of_mem hp, hid⟩

theorem detachPlan_eq_ok {plan : Plan} (h : detachPlan progs mp mode = .ok plan) :
    (∃ m, plan = .unload m ∧ Unloads (.detachMulti progs mode) mp) ∨
      plan = .replace ∧ Asks (.detachMulti progs mode) (some mp) := by
  by_cases hlegacy : mp.isLegacy
  · rw [detachPlan, if_pos hlegacy] at h
    simp only [checkLegacy, bind_eq_ok_iff, failIf_eq_ok_iff] at h
    obtain ⟨_, ⟨_, hone, _, -, hid⟩, _, -, hret⟩ := h
    cases hret
    refine Or.inl ⟨mode, rfl, Or.inl ⟨hlegacy, ?_⟩⟩
    cases progs with
    | nil => simp at hid
    | cons prog rest =>
      have hrest : rest = [] := by
        have : (prog :: rest).length ≤ 1 := not_lt.mp hone
        exact List.length_eq_zero_iff.mp (by simpa using this)
      exact ⟨prog, by rw [hrest], by simpa using hid⟩
  · rw [detachPlan, if_neg hlegacy] at h
    simp only [bind_eq_ok_iff, failIf_eq_ok_iff] at h
    obtain ⟨_, -, us, hus, hret⟩ := h
    have hlegacy : mp.isLegacy = false := Bool.eq_false_of_not_eq_true hlegacy
    have hfound := found_of_checkAttached hus
    by_cases hall : progs.length = mp.numLinks
    · rw [if_pos hall] at hret
      cases hret
      refine Or.inl ⟨mp.attachMode, rfl, Or.inr ⟨hlegacy, hfound, ?_⟩⟩
      rw [hall, mp.linked hlegacy, oldEntries, List.length_map]
      rfl
    · rw [if_neg hall] at hret
      cases hret
      exact Or.inr ⟨rfl, rfl, hfound⟩

theorem ne_zero_of_detachPlan {err : ℤ} (h : detachPlan progs mp mode = .error err) : err ≠ 0 := by
  by_cases hlegacy : mp.isLegacy
  · rw [detachPlan, if_pos hlegacy] at h
    simp only [checkLegacy, bind_eq_error_iff, failIf_eq_error_iff] at h
    rcases h with (⟨-, rfl⟩ | ⟨-, -, ⟨-, rfl⟩ | ⟨-, -, -, rfl⟩⟩) | ⟨-, -, ⟨-, rfl⟩ | ⟨-, -, hret⟩⟩
    any_goals decide
    cases hret
  · rw [detachPlan, if_neg hlegacy] at h
    simp only [bind_eq_error_iff, failIf_eq_error_iff] at h
    rcases h with ⟨-, rfl⟩ | ⟨-, -, hmap | ⟨-, -, hret⟩⟩
    · decide
    · obtain ⟨prog, -, hcheck⟩ := exists_of_mapM_eq_error hmap
      simp only [checkAttached, bind_eq_error_iff, failIf_eq_error_iff] at hcheck
      rcases hcheck with ⟨-, rfl⟩ | ⟨-, -, -, rfl⟩ <;> decide
    · cases hret

end Checks

section Moves

variable {h : Host} {c : Call} {err : ℤ}

namespace Call.Pending

variable (hc : c.Pending)

include hc

theorem done (herr : err ≠ 0) : (c.goto (.done err)).Ok order h := by
  refine ⟨fun hzero ↦ absurd hzero herr, fun happlied ↦ ?_⟩
  cases hc.applied.symm.trans happlied

theorem retryOr (herr : err ≠ 0) : (c.retryOr err).Ok order h := by
  unfold Call.retryOr
  split_ifs
  · exact hc.done (by decide)
  · exact ⟨hc.progs, hc.removed, hc.applied⟩
  · exact hc.done herr

theorem lookedUp {mp : Except ℤ XdpMultiprog} (hmp : ∀ mp', mp = .ok mp' → Knows order h mp')
    (herr : ∀ err, mp = .error err → err ≠ 0) : (c.lookedUp mp).Ok order h := by
  have hgenerate : ∀ oldMp, (∀ mp' ∈ oldMp, mp = .ok mp') → Asks c.request oldMp →
      (c.goto (.generate oldMp)).Ok order h :=
    fun oldMp hold hasks ↦ ⟨⟨hc.progs, hc.removed, hc.applied⟩, fun mp' h' ↦ hmp mp' (hold mp' h'), hasks⟩
  have hunload : ∀ mp' mode, mp = .ok mp' → Unloads c.request mp' →
      (c.goto (.attach (some mp') none mode)).Ok order h :=
    fun mp' mode h' hunloads ↦ ⟨⟨hc.progs, hc.removed, hc.applied⟩, mp', rfl, hmp mp' h', hunloads⟩
  unfold Call.lookedUp
  cases hrequest : c.request with
  | attachMulti progs mode skip =>
    dsimp only
    split_ifs with hsingle
    · refine ⟨⟨hc.progs, hc.removed, hc.applied⟩, ?_, hsingle.1⟩
      change c.request.removeProgs = false
      rw [hrequest]
      rfl
    · refine hgenerate _ (fun mp' h' ↦ ?_) (by rw [hrequest]; trivial)
      cases mp with
      | error err => cases h'
      | ok mp'' =>
        cases h'
        rfl
  | detachMulti progs mode =>
    cases mp with
    | error err => exact hc.done (by decide)
    | ok mp' =>
      dsimp only
      cases hplan : detachPlan progs mp' mode with
      | error err => exact hc.retryOr (ne_zero_of_detachPlan hplan)
      | ok plan =>
        obtain ⟨m, rfl, hunloads⟩ | ⟨rfl, hasks⟩ := detachPlan_eq_ok hplan
        · exact hunload mp' m rfl (hrequest ▸ hunloads)
        · refine hgenerate _ (fun mp'' h' ↦ ?_) (hrequest ▸ hasks)
          cases h'
          rfl
  | multiprogDetach =>
    cases mp with
    | error err => exact hc.done (herr err rfl)
    | ok mp' =>
      dsimp only
      split_ifs
      · exact hc.done (by decide)
      · exact hunload mp' _ rfl (by rw [hrequest]; trivial)

theorem queried (n : ℕ) (progId : UInt32) (attached : Option (UInt32 × XdpAttachMode)) :
    (c.queried n progId attached).Ok order h := by
  unfold Call.queried
  dsimp only
  split_ifs
  · exact hc.lookedUp (fun _ h' ↦ nomatch h') fun err h' ↦ Except.error.inj h' ▸ by decide
  · exact ⟨hc.progs, hc.removed, hc.applied⟩

theorem fromId {mp : Except ℤ XdpMultiprog} (n : ℕ) (progId : UInt32)
    (hmp : ∀ mp', mp = .ok mp' → Knows order h mp') (herr : ∀ err, mp = .error err → err ≠ 0) :
    (c.fromId n progId mp).Ok order h := by
  unfold Call.fromId
  cases mp with
  | ok mp' => exact hc.lookedUp hmp herr
  | error err =>
    dsimp only
    split_ifs
    · exact hc.lookedUp (fun _ h' ↦ nomatch h') fun err h' ↦ Except.error.inj h' ▸ by decide
    · exact ⟨hc.progs, hc.removed, hc.applied⟩
    · exact hc.lookedUp hmp herr

theorem generateFailed (herr : err ≠ 0) : (c.generateFailed err).Ok order h := by
  unfold Call.generateFailed
  split
  · rename_i hrequest
    split_ifs with hsingle
    · refine ⟨⟨hc.progs, hc.removed, hc.applied⟩, ?_, hsingle.2⟩
      change c.request.removeProgs = false
      rw [hrequest]
      rfl
    · exact hc.done herr
  · exact hc.retryOr herr

theorem pinFailed (herr : err ≠ 0) : (c.pinFailed err).Ok order h := by
  unfold Call.pinFailed
  split
  · exact hc.done herr
  · exact hc.retryOr herr

theorem attachFailed {new : Option UInt32} (herr : err ≠ 0)
    (hnew : ∀ id ∈ new, h.Spare id) : (c.attachFailed new err).Ok order h := by
  unfold Call.attachFailed
  split
  · exact hc.done herr
  · exact ⟨⟨hc.progs, hc.removed, hc.applied⟩, herr, hnew _ rfl⟩
  · exact hc.retryOr herr

end Call.Pending

end Moves

end KernelBypass.Libxdp
