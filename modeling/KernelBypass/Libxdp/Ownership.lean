import KernelBypass.Libxdp.Assertions

namespace KernelBypass.Libxdp

open Common.CommonParams Common.MapFiles Foundation Collect

variable {order : ByteOrder} {h h' : Host} {c : Call} {l l' m : Client}

section HostChanges

variable {id : UInt32} {d : Dispatcher} {left : Option PinDir}

@[simp]
theorem Host.dispatchers_load_self : (h.load id d).dispatchers id = some d :=
  Function.update_self ..

theorem Host.dispatchers_load_of_ne {id' : UInt32} (hne : id' ≠ id) :
    (h.load id d).dispatchers id' = h.dispatchers id' := Function.update_of_ne hne ..

@[simp]
theorem Host.pins_setPins_self : (h.setPins id left).pins id = left := Function.update_self ..

theorem Host.pins_setPins_of_ne {id' : UInt32} (hne : id' ≠ id) :
    (h.setPins id left).pins id' = h.pins id' := Function.update_of_ne hne ..

theorem Host.dispatchers_load (hid : h.dispatchers id = none) {id' : UInt32} {d' : Dispatcher}
    (hd' : h.dispatchers id' = some d') : (h.load id d).dispatchers id' = some d' := by
  have hne : id' ≠ id := fun heq ↦ by cases hid.symm.trans (heq ▸ hd')
  rw [dispatchers_load_of_ne hne, hd']

theorem Host.Ok.pins_eq_none (hh : h.Ok order) (hid : h.dispatchers id = none) :
    h.pins id = none := by
  by_contra hne
  obtain ⟨dir, hdir⟩ := Option.ne_none_iff_exists'.mp hne
  obtain ⟨d, hd, -⟩ := hh.agrees id dir hdir
  cases hid.symm.trans hd

theorem Host.Ok.pins_attached (hh : h.Ok order) (hid : h.attachedId = some id) :
    h.pins id = (h.dispatchers id).map Dispatcher.files := by
  cases hd : h.dispatchers id with
  | none => exact hh.pins_eq_none hd
  | some d => exact hh.attached id d hid hd

theorem Host.Ok.agrees_files (hh : h.Ok order) (hd : h.dispatchers id = some d) (dir : PinDir)
    (hdir : h.pins id = some dir) : Agrees dir d.files := by
  obtain ⟨d', hd', hagrees⟩ := hh.agrees id dir hdir
  exact Option.some_inj.mp (hd'.symm.trans hd) ▸ hagrees

theorem Host.Ok.load (hh : h.Ok order) (hid : h.dispatchers id = none) (hunseen : ¬ h.seen id)
    (hd : ∃ progs, d.Carries order progs) :
    (h.load id d).Ok order where
  carries id' d' hd' := by
    by_cases heq : id' = id
    · rw [heq, dispatchers_load_self] at hd'
      exact Option.some_inj.mp hd' ▸ hd
    · rw [dispatchers_load_of_ne heq] at hd'
      exact hh.carries id' d' hd'
  agrees id' dir hdir := by
    obtain ⟨d', hd', hagrees⟩ := hh.agrees id' dir hdir
    exact ⟨d', dispatchers_load hid hd', hagrees⟩
  attached id' d' hid' hd' := by
    have hne : id' ≠ id := fun heq ↦ hunseen (heq ▸ hh.seen id' hid')
    rw [dispatchers_load_of_ne hne] at hd'
    exact hh.attached id' d' hid' hd'
  seen := hh.seen

theorem Host.Ok.setPins (hh : h.Ok order) (hid : h.Spare id) (hleft : h.Leaves id left) :
    (h.setPins id left).Ok order where
  carries := hh.carries
  agrees id' dir hdir := by
    by_cases heq : id' = id
    · rw [heq, pins_setPins_self] at hdir
      obtain ⟨d, hd⟩ := Option.isSome_iff_exists.mp hid.1
      exact ⟨d, heq ▸ hd, hleft d hd dir hdir⟩
    · rw [pins_setPins_of_ne heq] at hdir
      exact hh.agrees id' dir hdir
  attached id' d' hid' hd' := by
    have hne : id' ≠ id := fun heq ↦ hid.2 (heq ▸ hid')
    rw [pins_setPins_of_ne hne]
    exact hh.attached id' d' hid' hd'
  seen := hh.seen

theorem Host.Ok.setAttached (hh : h.Ok order) {attached : Option (UInt32 × XdpAttachMode)}
    (hattached : ∀ a ∈ attached, ∀ d, h.dispatchers a.1 = some d → h.pins a.1 = some d.files) :
    (h.setAttached attached).Ok order where
  carries := hh.carries
  agrees := hh.agrees
  attached id d hid hd := by
    obtain ⟨a, ha, rfl⟩ := Option.map_eq_some_iff.mp hid
    exact hattached a ha d hd
  seen _ hid := Or.inr hid

end HostChanges

section Lookups

variable {progId : UInt32} {mode : XdpAttachMode}

theorem Knows.legacy (progId version : UInt32) (numLinks : ℕ) (mode : XdpAttachMode) :
    Knows order h (legacyMultiprog progId version numLinks mode) := by
  have hlegacy : true ≠ false := by decide
  exact ⟨fun h' ↦ absurd h' hlegacy, fun h' ↦ absurd h' hlegacy⟩

theorem Reads.knows (hh : h.Ok order) {e : Event} {mp : XdpMultiprog}
    (hread : Reads order h progId mode e (.ok mp)) : Knows order h mp := by
  cases hread with
  | @dispatcher d mp hd hmp =>
    obtain ⟨progs, hcarries⟩ := hh.carries progId d hd
    obtain ⟨hid, -, hread⟩ := hcarries.fillFromFd_eq_ok (hh.agrees_files hd) hmp
    refine ⟨fun hlegacy ↦ ?_, fun hlegacy _ ↦ ⟨d, hid ▸ hd, ?_⟩⟩
    · have hloaded : ∀ prog ∈ progs, prog.progFd.isSome :=
        forall_mem_of_forall₂ hcarries.linked.flip fun _ _ _ hprog ↦ hprog.fd ▸ rfl
      exact forall_mem_of_forall₂ (hread hlegacy) fun prog hprog q hq ↦
        ⟨hq.fd ▸ hloaded prog hprog, hq.object⟩
    · rw [hcarries.entries_eq]
      exact map_eq_map_of_forall₂ (hread hlegacy) fun _ _ hq ↦ hq.entry.symm
  | other => exact .legacy ..
  | unloaded => exact ⟨fun _ ↦ List.forall_mem_nil _, fun _ hid ↦ absurd rfl hid⟩

theorem Reads.event {e : Event} {r : Except ℤ XdpMultiprog}
    (hread : Reads order h progId mode e r) : e = .moved ∨ e = .refused := by
  cases hread with
  | dispatcher | other => exact Or.inl rfl
  | unloaded | failed => exact Or.inr rfl

theorem Reads.ne_zero {e : Event} {err : ℤ} (hread : Reads order h progId mode e (.error err)) :
    err ≠ 0 := by
  cases hread with
  | failed herr => exact herr

end Lookups

section Generating

variable {oldMp : Option XdpMultiprog} {env : GenerateEnv} {g : Generated} {new : UInt32}

/-- A dispatcher that has been generated for a request is the one that it asks for. -/
theorem Call.Pending.makes (hc : c.Pending) (hold : ∀ mp ∈ oldMp, Knows order h mp)
    (hasks : Asks c.request oldMp)
    (hgen : generate env c.progs oldMp c.request.removeProgs = .ok g) :
    Makes c.request oldMp ((g.dispatcher order).entries order) := by
  have hloaded : ∀ mp ∈ oldMp, ∀ prog ∈ mp.progs, prog.progFd.isSome := fun mp hmp prog hprog ↦
    ((hold mp hmp).loaded (generate_not_legacy hgen mp hmp) prog hprog).1
  cases hrequest : c.request with
  | attachMulti progs mode skip =>
    rw [hrequest] at hgen
    obtain ⟨hes, hperm⟩ := generate_adds order hgen hloaded
    have hprogs := hc.progs
    rw [hrequest] at hprogs
    exact ⟨_, forall₂_comp hprogs hes fun _ _ _ ↦ Loads.joins, hperm⟩
  | detachMulti progs mode =>
    rw [hrequest] at hgen hasks
    obtain ⟨mp, rfl⟩ := Option.isSome_iff_exists.mp hasks.1
    have hprogs : c.progs = progs := by
      rw [hc.removed (by rw [hrequest]; rfl), hrequest]
      rfl
    rw [hprogs] at hgen
    obtain ⟨hperm, hlen⟩ := generate_removes order hgen (hloaded mp rfl)
    exact ⟨rfl, hasks.2, hperm, hlen⟩
  | multiprogDetach =>
    rw [hrequest] at hasks
    exact hasks.elim

theorem Call.Pending.linkedBy (hc : c.Pending) (pc : Pc) :
    Call.Pending { c with progs := c.linkedBy env, pc } where
  progs := by
    change List.Forall₂ Loads c.request.progs (c.linkedBy env)
    rw [Call.linkedBy]
    split_ifs
    · exact hc.progs
    · rw [List.forall₂_map_right_iff]
      exact hc.progs.imp fun _ _ hload ↦ hload.trans (loads_loadedBy env _)
  removed hremove := by
    change c.linkedBy env = c.request.progs
    rw [Call.linkedBy, if_pos hremove, hc.removed hremove]
  applied := hc.applied

end Generating

section Attaching

variable {K : Kernel} {oldMp : Option XdpMultiprog} {new : Option UInt32} {mode : XdpAttachMode}
  {a : Option (UInt32 × XdpAttachMode)}

theorem Kernel.Attaches.eq_of_ok (hK : K.replaces = true) {old : Option UInt32}
    (hk : K.Attaches h.attached new old mode (.ok a)) :
    h.attachedId = old ∧ a.map Prod.fst = new := by
  cases hk with
  | done hattached =>
    refine ⟨?_, ?_⟩
    · rw [Host.attachedId, hattached (Or.inl hK), Option.map_map]
      exact Option.map_id'
    · rw [Option.map_map]
      exact Option.map_id'
  | unlinked hnew hattached => exact ⟨hattached, hnew.symm⟩

theorem attachError_ne_zero {old : Option UInt32} {err : ℤ} (herr : err ≠ 0) :
    attachError old err ≠ 0 := by
  unfold attachError
  split_ifs
  · decide
  · exact herr

theorem Call.Ok.pending_of_attach (hc : c.Ok order h) (hpc : c.pc = .attach oldMp new mode) :
    c.Pending := by
  unfold Call.Ok at hc
  rw [hpc] at hc
  cases new <;> exact hc.1

/-- A request takes the place of what it has seen. -/
theorem Call.Ok.attached (hh : h.Ok order) (hc : c.Ok order h)
    (hpc : c.pc = .attach oldMp new mode) (hold : ∀ mp ∈ oldMp, mp.mainId ≠ 0)
    (hseen : h.attachedId = oldMp.map XdpMultiprog.mainId) (hnew : a.map Prod.fst = new) :
    (h.setAttached a).Ok order ∧
      (c.attached oldMp new).Ok order (h.setAttached a) := by
  have hspare : ∀ mp, oldMp = some mp → mp.isLegacy = false → Knows order h mp →
      (h.setAttached a).attachedId ≠ some mp.mainId →
      (h.setAttached a).Spare mp.mainId := by
    intro mp hmp hlegacy hknows hne
    obtain ⟨d, hd, -⟩ := hknows.entries hlegacy (hold mp hmp)
    exact ⟨Option.isSome_iff_exists.mpr ⟨d, hd⟩, hne⟩
  unfold Call.Ok at hc
  rw [hpc] at hc
  cases new with
  | some id =>
    obtain ⟨-, hprepared, hid, -, hfiles⟩ := hc
    refine ⟨hh.setAttached fun b hb d hd ↦ ?_, ?_⟩
    · have hbid : b.1 = id :=
        Option.some_inj.mp ((Option.map_eq_some_iff.mpr ⟨b, hb, rfl⟩).symm.trans hnew)
      rw [hbid] at hd ⊢
      rw [hfiles, hd]
      rfl
    · cases oldMp with
      | none => exact ⟨fun _ ↦ rfl, fun _ ↦ Or.inl rfl⟩
      | some mp =>
        obtain ⟨hknows, hlegacy⟩ := hprepared.old mp rfl
        unfold Call.attached
        dsimp only
        rw [if_neg (by rw [hlegacy]; decide)]
        refine ⟨rfl, hspare mp rfl hlegacy hknows fun heq ↦ hid.2 ?_, fun hreplaced ↦ nomatch hreplaced⟩
        rw [hseen, Option.map_some, ← heq]
        exact hnew
  | none =>
    obtain ⟨-, mp, rfl, hknows, hunloads⟩ := hc
    obtain rfl : a = none := Option.map_eq_none_iff.mp hnew
    refine ⟨hh.setAttached (fun b hb ↦ nomatch hb), ?_⟩
    unfold Call.attached
    dsimp only
    split_ifs with hlegacy
    · exact ⟨fun _ ↦ rfl, fun _ ↦ Or.inl rfl⟩
    · refine ⟨rfl, hspare mp rfl (Bool.eq_false_of_not_eq_true hlegacy) hknows (fun heq ↦ nomatch heq),
        fun _ ↦ ?_⟩
      change c.request.removeProgs = true
      cases hrequest : c.request with
      | attachMulti progs mode skip =>
        rw [hrequest] at hunloads
        exact hunloads.elim
      | detachMulti progs mode => rfl
      | multiprogDetach => rfl

theorem Call.Ok.unpinnedOld {mp : XdpMultiprog} {replaced : Bool} {err : ℤ} (hc : c.Ok order h)
    (hpc : c.pc = .unpinOld mp replaced) (herr : err ≠ -eagain) :
    (c.unpinnedOld replaced err).Ok order h' := by
  unfold Call.Ok at hc
  rw [hpc] at hc
  obtain ⟨happlied, -, hremove⟩ := hc
  unfold Call.unpinnedOld
  split_ifs with hreplaced
  · exact ⟨fun _ ↦ happlied, fun _ ↦ Or.inl rfl⟩
  · have hremove := hremove (Bool.eq_false_of_not_eq_true hreplaced)
    have hdone : (c.goto (.done err)).Ok order h' := ⟨fun _ ↦ happlied, fun _ ↦ Or.inr hremove⟩
    split
    · exact hdone
    · rw [Call.retryOr, if_neg herr]
      exact hdone

end Attaching

section Steps

variable {K : Kernel} {e : Event}

theorem Call.start_ok (r : Request) : (Call.start r).Ok order h := by
  have hpending : (Call.start r).Pending :=
    ⟨List.forall₂_same.mpr fun prog _ ↦ .refl prog, fun _ ↦ rfl, rfl⟩
  have hpc : (Call.start r).pc = .query 0 0 ∨ (Call.start r).pc = .done (-einval) := by
    cases r with
    | attachMulti progs mode skip => exact (ite_eq_or_eq ..).symm
    | detachMulti progs mode => exact (ite_eq_or_eq ..).symm
    | multiprogDetach => exact Or.inl rfl
  rcases hpc with hpc | hpc
  · unfold Call.Ok
    rw [hpc]
    exact hpending
  · have hdone : ((Call.start r).goto (.done (-einval))).Ok order h := hpending.done (by decide)
    rwa [Call.goto, ← hpc] at hdone

/-- A step leaves the client that takes it where its call is to be. -/
theorem Step.mover (hK : K.replaces = true) (hstep : Step order K e (h, l) (h', l'))
    (hh : h.Ok order) (hl : l.Ok order h) : h'.Ok order ∧ l'.Ok order h' := by
  cases hstep with
  | called hmode => exact ⟨hh, Call.start_ok _⟩
  | @queryFailed _ c n progId err hpc herr =>
    have hpending : c.Pending := Call.Ok.at_pc hl hpc
    refine ⟨hh, hpending.lookedUp (fun _ h' ↦ nomatch h') fun err' h' ↦ ?_⟩
    exact Except.error.inj h' ▸ herr
  | @queried _ c n progId hpc =>
    have hpending : c.Pending := Call.Ok.at_pc hl hpc
    exact ⟨hh, hpending.queried n progId _⟩
  | @getFdFailed _ c n progId mode err hpc herr hfreed =>
    have hpending : c.Pending := Call.Ok.at_pc hl hpc
    refine ⟨hh, hpending.fromId n progId (fun _ h' ↦ nomatch h') fun err' h' ↦ ?_⟩
    exact Except.error.inj h' ▸ herr
  | @gotFd _ c n progId mode hpc =>
    have hpending : c.Pending := Call.Ok.at_pc hl hpc
    exact ⟨hh, hpending.progs, hpending.removed, hpending.applied⟩
  | @read _ c n progId mode e mp hpc hread =>
    have hpending : c.Pending := Call.Ok.at_pc hl hpc
    refine ⟨hh, hpending.fromId n progId (fun mp' h' ↦ ?_) fun err' h' ↦ ?_⟩
    · exact (h' ▸ hread).knows hh
    · exact (h' ▸ hread).ne_zero
  | @readImpaired _ c n progId mode version numLinks hpc =>
    have hpending : c.Pending := Call.Ok.at_pc hl hpc
    refine ⟨hh, hpending.fromId n progId (fun mp' h' ↦ ?_) fun _ h' ↦ nomatch h'⟩
    exact Except.ok.inj h' ▸ .legacy ..
  | @generateFailed _ c oldMp env err e hpc hgen herr he =>
    have hl := Call.Ok.at_pc hl hpc
    exact ⟨hh, hl.1.generateFailed herr⟩
  | generateFault hpc hgen => exact ⟨hh, trivial⟩
  | @generated _ c oldMp env g new hpc hgen hnew =>
    have hl := Call.Ok.at_pc hl hpc
    obtain ⟨hpending, hold, hasks⟩ := hl
    obtain ⟨-, hfresh, hunseen⟩ := hnew
    refine ⟨hh.load hfresh hunseen ⟨_, generate_carries order hgen⟩, hpending.linkedBy _, ?_, ?_,
      hunseen, hh.pins_eq_none hfresh⟩
    · refine ⟨fun mp hmp ↦ ⟨(hold mp hmp).mono fun _ _ ↦ Host.dispatchers_load hfresh,
        generate_not_legacy hgen mp hmp⟩, g.dispatcher order, Host.dispatchers_load_self, ?_⟩
      exact hpending.makes hold hasks hgen
    · exact ⟨by rw [Host.dispatchers_load_self]; rfl, mt (hh.seen new) hunseen⟩
  | @pinFailed _ c oldMp new err hpc herr =>
    have hl := Call.Ok.at_pc hl hpc
    exact ⟨hh, hl.1.pinFailed herr⟩
  | @pinImpaired _ c oldMp new err left hpc herr hleft =>
    have hl := Call.Ok.at_pc hl hpc
    exact ⟨hh.setPins hl.2.2.1 hleft, hl.1.pinFailed herr⟩
  | @pinned _ c oldMp new d hpc hd =>
    have hl := Call.Ok.at_pc hl hpc
    obtain ⟨hpending, hprepared, hspare, hunseen, -⟩ := hl
    have hleft : h.Leaves new (some d.files) := by
      intro d' hd' dir hdir
      obtain rfl := Option.some_inj.mp hdir
      exact Option.some_inj.mp (hd'.symm.trans hd) ▸ Agrees.refl _
    refine ⟨hh.setPins hspare hleft, ⟨hpending.progs, hpending.removed, hpending.applied⟩,
      hprepared.mono fun _ _ hd ↦ hd, hspare, hunseen, ?_⟩
    rw [Host.pins_setPins_self]
    exact (congrArg (Option.map Dispatcher.files) hd).symm
  | @attachInvalid _ c mp new mode hpc hmp =>
    refine ⟨hh, (Call.Ok.pending_of_attach hl hpc).attachFailed (by decide) fun id hid ↦ ?_⟩
    exact Call.Ok.spare hl (by rw [hpc]; exact hid)
  | @attachFailed _ c oldMp new mode err hpc hk =>
    have herr : err ≠ 0 := by
      cases hk
      assumption
    refine ⟨hh, (Call.Ok.pending_of_attach hl hpc).attachFailed (attachError_ne_zero herr)
      fun id hid ↦ ?_⟩
    exact Call.Ok.spare hl (by rw [hpc]; exact hid)
  | @attached _ c oldMp new mode a hpc hold hk =>
    obtain ⟨hseen, hnew⟩ := hk.eq_of_ok hK
    exact Call.Ok.attached hh hl hpc hold hseen hnew
  | @unpinnedNew _ c new err hpc =>
    have hl := Call.Ok.at_pc hl hpc
    exact ⟨hh.setPins hl.2.2 (fun _ _ _ hdir ↦ nomatch hdir), hl.1.retryOr hl.2.1⟩
  | @unpinNewImpaired _ c new err left hpc hleft =>
    have hl := Call.Ok.at_pc hl hpc
    exact ⟨hh.setPins hl.2.2 hleft, hl.1.retryOr hl.2.1⟩
  | @unpinnedOld _ c mp replaced hpc =>
    have hspare : h.Spare mp.mainId := Call.Ok.spare hl (by rw [hpc]; rfl)
    exact ⟨hh.setPins hspare (fun _ _ _ hdir ↦ nomatch hdir),
      Call.Ok.unpinnedOld hl hpc (by decide)⟩
  | @unpinOldImpaired _ c mp replaced err left hpc herr hleft =>
    have hspare : h.Spare mp.mainId := Call.Ok.spare hl (by rw [hpc]; rfl)
    exact ⟨hh.setPins hspare hleft, Call.Ok.unpinnedOld hl hpc herr.2⟩
  | @singleFailed _ c err hpc herr =>
    have hl := Call.Ok.at_pc hl hpc
    exact ⟨hh, hl.1.done herr⟩
  | @single _ c prog id a hpc hprog hid hother hk =>
    obtain ⟨-, hnew⟩ := hk.eq_of_ok hK
    refine ⟨hh.setAttached fun b hb d hd ↦ ?_, fun _ ↦ rfl, fun _ ↦ Or.inl rfl⟩
    have hbid : b.1 = id :=
      Option.some_inj.mp ((Option.map_eq_some_iff.mpr ⟨b, hb, rfl⟩).symm.trans hnew)
    cases hother.symm.trans (hbid ▸ hd)
  | returned hpc => exact ⟨hh, trivial⟩
  | died => exact ⟨hh, trivial⟩
  | @diedPinning _ c oldMp new left hpc hleft =>
    have hspare : h.Spare new := Call.Ok.spare hl (by rw [hpc]; rfl)
    exact ⟨hh.setPins hspare hleft, trivial⟩
  | @diedUnpinning _ c id left hpc hleft =>
    have hholds : c.pc.holds = some id := by
      rcases hpc with ⟨err, hpc⟩ | ⟨mp, replaced, hpc, rfl⟩ <;> rw [hpc] <;> rfl
    exact ⟨hh.setPins (Call.Ok.spare hl hholds) hleft, trivial⟩

structure Effect (h : Host) (l : Client) (h' : Host) (l' : Client) : Prop where
  grows : ∀ id d, h.dispatchers id = some d → h'.dispatchers id = some d
  pins : ∀ id, l.holds ≠ some id → h'.pins id = h.pins id
  attached : ∀ id, h'.attachedId = some id →
    h.attachedId = some id ∨ l.holds = some id ∨ h.dispatchers id = none
  seen : ∀ id, h'.seen id → h.seen id ∨ h'.attachedId = some id
  holds : ∀ id, l'.holds = some id →
    l.holds = some id ∨ h.dispatchers id = none ∨ h.attachedId = some id

theorem Effect.of_holds (hholds : l'.holds = none ∨ l'.holds = l.holds) : Effect h l h l' where
  grows _ _ hd := hd
  pins _ _ := rfl
  attached _ hid := Or.inl hid
  seen _ hid := Or.inl hid
  holds id hid := by
    rcases hholds with hnone | hsame
    · cases hnone.symm.trans hid
    · exact Or.inl (hsame ▸ hid)

theorem Effect.setPins {id : UInt32} {left : Option PinDir} (hid : l.holds = some id)
    (hholds : l'.holds = none ∨ l'.holds = some id) : Effect h l (h.setPins id left) l' where
  grows _ _ hd := hd
  pins id' hne := Host.pins_setPins_of_ne fun heq ↦ hne (heq ▸ hid)
  attached _ hid := Or.inl hid
  seen _ hid := Or.inl hid
  holds id' hid' := by
    rcases hholds with hnone | hsame
    · cases hnone.symm.trans hid'
    · exact Or.inl (hid.trans (hsame.symm.trans hid'))

structure Continues (c c' : Call) : Prop where
  request : c'.request = c.request
  applied : c'.applied = c.applied
  holds : c'.pc.holds = none ∨ c'.pc.holds = c.pc.holds

namespace Continues

theorem goto {pc : Pc} (hpc : pc.holds = none ∨ pc.holds = c.pc.holds) : Continues c (c.goto pc) :=
  ⟨rfl, rfl, hpc⟩

theorem retryOr (err : ℤ) : Continues c (c.retryOr err) := by
  unfold Call.retryOr
  split_ifs
  · exact goto (Or.inl rfl)
  · exact ⟨rfl, rfl, Or.inl rfl⟩
  · exact goto (Or.inl rfl)

theorem lookedUp (mp : Except ℤ XdpMultiprog) : Continues c (c.lookedUp mp) := by
  unfold Call.lookedUp
  split
  · split_ifs <;> exact goto (Or.inl rfl)
  · split
    · exact goto (Or.inl rfl)
    · split
      · exact retryOr _
      · exact goto (Or.inl rfl)
      · exact goto (Or.inl rfl)
  · split
    · exact goto (Or.inl rfl)
    · split_ifs <;> exact goto (Or.inl rfl)

theorem fromId (n : ℕ) (progId : UInt32) (mp : Except ℤ XdpMultiprog) :
    Continues c (c.fromId n progId mp) := by
  unfold Call.fromId
  split
  · exact lookedUp _
  · split_ifs
    · exact lookedUp _
    · exact goto (Or.inl rfl)
    · exact lookedUp _

theorem queried (n : ℕ) (progId : UInt32) (a : Option (UInt32 × XdpAttachMode)) :
    Continues c (c.queried n progId a) := by
  unfold Call.queried
  dsimp only
  split_ifs
  · exact lookedUp _
  · exact goto (Or.inl rfl)

theorem generateFailed (err : ℤ) : Continues c (c.generateFailed err) := by
  unfold Call.generateFailed
  split
  · split_ifs <;> exact goto (Or.inl rfl)
  · exact retryOr err

theorem pinFailed (err : ℤ) : Continues c (c.pinFailed err) := by
  unfold Call.pinFailed
  split
  · exact goto (Or.inl rfl)
  · exact retryOr err

theorem attachFailed {new : Option UInt32} (hnew : c.pc.holds = new) (err : ℤ) :
    Continues c (c.attachFailed new err) := by
  unfold Call.attachFailed
  split
  · exact goto (Or.inl rfl)
  · exact goto (Or.inr hnew.symm)
  · exact retryOr err

theorem unpinnedOld (replaced : Bool) (err : ℤ) : Continues c (c.unpinnedOld replaced err) := by
  unfold Call.unpinnedOld
  split_ifs
  · exact goto (Or.inl rfl)
  · split
    · exact goto (Or.inl rfl)
    · exact retryOr err

end Continues

theorem Effect.of_continues {c' : Call} (hc : Continues c c') : Effect h (.busy c) h (.busy c') :=
  .of_holds hc.holds

theorem Effect.setPins_of_continues {c' : Call} {id : UInt32} {left : Option PinDir}
    (hid : c.pc.holds = some id) (hc : Continues c c') :
    Effect h (.busy c) (h.setPins id left) (.busy c') :=
  .setPins hid (hid ▸ hc.holds)

theorem Call.holds_attached (oldMp : Option XdpMultiprog) (new : Option UInt32) :
    (c.attached oldMp new).pc.holds = none ∨
      (c.attached oldMp new).pc.holds = oldMp.map XdpMultiprog.mainId := by
  unfold Call.attached
  dsimp only
  split
  · exact Or.inl rfl
  · split_ifs
    · exact Or.inl rfl
    · exact Or.inr rfl

theorem Call.holds_start (r : Request) : (Call.start r).pc.holds = none := by
  have hfirst : ∀ p : Prop, [Decidable p] →
      (if p then Pc.done (-einval) else Pc.query 0 0).holds = none := by
    intro p _
    split_ifs <;> rfl
  cases r with
  | attachMulti progs mode skip => exact hfirst _
  | detachMulti progs mode => exact hfirst _
  | multiprogDetach => rfl

/-- A dispatcher changes hands only between a client and the interface. -/
theorem Step.effect (hK : K.replaces = true) (hstep : Step order K e (h, l) (h', l')) :
    Effect h l h' l' := by
  cases hstep with
  | called hmode => exact .of_holds (Or.inl (Call.holds_start _))
  | queryFailed hpc herr => exact .of_continues (.lookedUp _)
  | queried hpc => exact .of_continues (.queried ..)
  | getFdFailed hpc herr hfreed => exact .of_continues (.fromId ..)
  | gotFd hpc => exact .of_continues (.goto (Or.inl rfl))
  | read hpc hread => exact .of_continues (.fromId ..)
  | readImpaired hpc => exact .of_continues (.fromId ..)
  | generateFailed hpc hgen herr => exact .of_continues (.generateFailed _)
  | generateFault hpc hgen => exact .of_holds (Or.inl rfl)
  | @generated _ c oldMp env g new hpc hgen hnew =>
    refine ⟨fun _ _ ↦ Host.dispatchers_load hnew.2.1, fun _ _ ↦ rfl, fun _ ↦ Or.inl,
      fun _ ↦ Or.inl, ?_⟩
    rintro id ⟨⟩
    exact Or.inr (Or.inl hnew.2.1)
  | pinFailed hpc herr => exact .of_continues (.pinFailed _)
  | @pinImpaired _ c oldMp new err left hpc herr hleft =>
    exact .setPins_of_continues (congrArg Pc.holds hpc) (.pinFailed _)
  | @pinned _ c oldMp new d hpc hd => exact .setPins (congrArg Pc.holds hpc) (Or.inr rfl)
  | @attachInvalid _ c mp new mode hpc hmp =>
    exact .of_continues (.attachFailed (congrArg Pc.holds hpc) _)
  | @attachFailed _ c oldMp new mode err hpc hk =>
    exact .of_continues (.attachFailed (congrArg Pc.holds hpc) _)
  | @attached _ c oldMp new mode a hpc hold hk =>
    obtain ⟨hseen, hnew⟩ := hk.eq_of_ok hK
    refine ⟨fun _ _ hd ↦ hd, fun _ _ ↦ rfl, fun id hid ↦ ?_, fun _ hid ↦ hid, fun id hid ↦ ?_⟩
    · exact Or.inr (Or.inl ((congrArg Pc.holds hpc).trans (hnew.symm.trans hid)))
    · rcases c.holds_attached oldMp new with hnone | hsome
      · cases hnone.symm.trans hid
      · exact Or.inr (Or.inr (hseen.trans (hsome.symm.trans hid)))
  | @unpinnedNew _ c new err hpc =>
    exact .setPins_of_continues (congrArg Pc.holds hpc) (.retryOr _)
  | @unpinNewImpaired _ c new err left hpc hleft =>
    exact .setPins_of_continues (congrArg Pc.holds hpc) (.retryOr _)
  | @unpinnedOld _ c mp replaced hpc =>
    exact .setPins_of_continues (congrArg Pc.holds hpc) (.unpinnedOld ..)
  | @unpinOldImpaired _ c mp replaced err left hpc herr hleft =>
    exact .setPins_of_continues (congrArg Pc.holds hpc) (.unpinnedOld ..)
  | singleFailed hpc herr => exact .of_continues (.goto (Or.inl rfl))
  | @single _ c prog id a hpc hprog hid hother hk =>
    obtain ⟨-, hnew⟩ := hk.eq_of_ok hK
    refine ⟨fun _ _ hd ↦ hd, fun _ _ ↦ rfl, fun id' hid' ↦ ?_, fun _ hid' ↦ hid',
      fun _ hid' ↦ nomatch hid'⟩
    obtain rfl : id' = id := Option.some_inj.mp (hid'.symm.trans hnew)
    exact Or.inr (Or.inr hother)
  | returned hpc => exact .of_holds (Or.inl rfl)
  | died => exact .of_holds (Or.inl rfl)
  | @diedPinning _ c oldMp new left hpc hleft =>
    exact .setPins (congrArg Pc.holds hpc) (Or.inl rfl)
  | @diedUnpinning _ c id left hpc hleft =>
    refine .setPins ?_ (Or.inl rfl)
    rcases hpc with ⟨err, hpc⟩ | ⟨mp, replaced, hpc, rfl⟩ <;> exact congrArg Pc.holds hpc

theorem Client.Ok.spare (hm : m.Ok order h) {id : UInt32} (hid : m.holds = some id) :
    h.Spare id := by
  cases m with
  | idle => cases hid
  | busy c => exact Call.Ok.spare hm hid
  | dead => cases hid

theorem Client.Ok.frame (hm : m.Ok order h)
    (hgrows : ∀ id d, h.dispatchers id = some d → h'.dispatchers id = some d)
    (hpins : ∀ id, m.holds = some id → h'.pins id = h.pins id)
    (hattached : ∀ id, m.holds = some id → h'.attachedId ≠ some id)
    (hseen : ∀ id, h'.seen id → h.seen id ∨ h'.attachedId = some id) : m.Ok order h' := by
  cases m with
  | idle => trivial
  | busy c =>
    refine Call.Ok.frame hm hgrows hpins hattached fun id hid hid' ↦ ?_
    exact (hseen id hid').resolve_right (hattached id hid)
  | dead => trivial

/-- What holds between the clients and the interface withstands every step of every client. -/
theorem protocolOutline_stable (hK : K.replaces = true) :
    (protocolOutline order).Stable (Step order K) Foreign where
  symm l m hlm id hm hl := hlm id hl hm
  mover e h l h' l' hstep := hstep.mover hK
  bystander e h l h' l' m hstep hh hl hm hlm := by
    have heffect := hstep.effect hK
    have hspare : ∀ id, m.holds = some id →
        h.Spare id ∧ l.holds ≠ some id ∧ h.dispatchers id ≠ none := by
      intro id hid
      have hid' := Client.Ok.spare hm hid
      exact ⟨hid', fun hl' ↦ hlm id hl' hid, Option.isSome_iff_ne_none.mp hid'.1⟩
    refine ⟨hm.frame heffect.grows (fun id hid ↦ ?_) (fun id hid hattached ↦ ?_) heffect.seen,
      fun id hl' hid ↦ ?_⟩
    · exact heffect.pins id (hspare id hid).2.1
    · obtain ⟨hid', hne, hloaded⟩ := hspare id hid
      exact (heffect.attached id hattached).elim hid'.2 (Or.elim · hne hloaded)
    · obtain ⟨hid', hne, hloaded⟩ := hspare id hid
      exact (heffect.holds id hl').elim hne (Or.elim · hloaded hid'.2)
  world a h h' hforeign hh := by
    cases hforeign with
    | attached hother =>
      refine ⟨hh.setAttached fun b hb d hd ↦ ?_, fun m hm ↦ ?_⟩
      · cases (hother b hb).symm.trans hd
      · refine Client.Ok.frame hm (fun _ _ hd ↦ hd) (fun _ _ ↦ rfl) (fun id hid hattached ↦ ?_)
          fun _ hid ↦ hid
        obtain ⟨b, hb, rfl⟩ := Option.map_eq_some_iff.mp hattached
        have hloaded := (Client.Ok.spare hm hid).1
        rw [hother b hb] at hloaded
        cases hloaded

def freshHost (attached : Option (UInt32 × XdpAttachMode)) : Host :=
  ⟨fun _ ↦ none, attached, fun id ↦ attached.map Prod.fst = some id, fun _ ↦ none⟩

theorem protocolOutline_fresh {κ : Type} (attached : Option (UInt32 × XdpAttachMode)) :
    (protocolOutline order).Holds (freshHost attached, fun _ : κ ↦ .idle) where
  shared := by
    refine ⟨fun _ _ hd ↦ ?_, fun _ _ hdir ↦ ?_, fun _ _ _ hd ↦ ?_, fun _ hid ↦ hid⟩
    · cases hd
    · cases hdir
    · cases hd
  party _ := trivial
  between _ _ _ _ hid := nomatch hid

end Steps

section Content

/-- What is attached to an interface: a program and, where it is a dispatcher, the entries of
its chain. -/
structure Attachment where
  mainId : UInt32
  chain : Option (List Entry)

def Host.content (order : ByteOrder) (h : Host) : Option Attachment :=
  h.attachedId.map fun id ↦ ⟨id, (h.dispatchers id).map (Dispatcher.entries order)⟩

theorem Host.content_load {id : UInt32} {d : Dispatcher} (hid : h.attachedId ≠ some id) :
    (h.load id d).content order = h.content order := by
  unfold Host.content
  refine Option.map_congr fun id' hid' ↦ ?_
  have hne : id' ≠ id := fun heq ↦ hid (heq ▸ hid')
  rw [Host.dispatchers_load_of_ne hne]

theorem Host.attachedId_of_content {a : Attachment} (hcontent : h.content order = some a) :
    h.attachedId = some a.mainId := by
  obtain ⟨id, hid, rfl⟩ := Option.map_eq_some_iff.mp hcontent
  exact hid

theorem Host.content_of_attached {id : UInt32} (hid : h.attachedId = some id) :
    h.content order = some ⟨id, (h.dispatchers id).map (Dispatcher.entries order)⟩ := by
  rw [Host.content, hid]
  rfl

theorem Knows.content {mp : XdpMultiprog} (hmp : Knows order h mp) (hlegacy : mp.isLegacy = false)
    (hid : mp.mainId ≠ 0) (hattached : h.attachedId = some mp.mainId) :
    h.content order = some ⟨mp.mainId, some (oldEntries (some mp))⟩ := by
  obtain ⟨d, hd, hentries⟩ := hmp.entries hlegacy hid
  rw [Host.content_of_attached hattached, hd, Option.map_some, hentries]
  rfl

end Content

end KernelBypass.Libxdp
