import KernelBypass.Libxdp.Atomic

namespace KernelBypass.Libxdp

open Common.CommonParams Common.MapFiles Foundation Collect

def Host.Gone (h : Host) (id : UInt32) : Prop :=
  h.seen id ∧ (h.dispatchers id = none ∨ h.attachedId ≠ some id)

/-- What a call knows of the ids that it has been told: a dispatcher whose files it has not
found has been taken away. -/
def Pc.Informed (h : Host) : Pc → Prop
  | .query _ progId => progId ≠ 0 → h.seen progId
  | .getFd _ progId _ => h.seen progId
  | .read _ progId _ => h.seen progId
  | .generate oldMp => ∀ mp ∈ oldMp, mp.isLegacy = true → h.Gone mp.mainId
  | .pin oldMp _ => ∀ mp ∈ oldMp, mp.isLegacy = true → h.Gone mp.mainId
  | .attach oldMp _ _ => ∀ mp ∈ oldMp, mp.isLegacy = true → h.Gone mp.mainId
  | _ => True

def Client.Informed (h : Host) : Client → Prop
  | .busy c => c.pc.Informed h
  | _ => True

variable {order : ByteOrder} {K : Kernel} {h h' : Host} {c : Call} {l l' : Client} {e : Event}

section Lookups

variable {progId : UInt32} {mode : XdpAttachMode}

/-- The files of a dispatcher that is attached are all there, so it is never taken for a
program of another kind. -/
theorem Reads.gone (hh : h.Ok order) (hseen : h.seen progId) {mp : XdpMultiprog}
    (hread : Reads order h progId mode e (.ok mp)) (hlegacy : mp.isLegacy = true) :
    h.Gone mp.mainId := by
  cases hread with
  | @dispatcher d mp hd hmp =>
    obtain ⟨progs, hcarries⟩ := hh.carries progId d hd
    obtain ⟨hid, -⟩ := hcarries.fillFromFd_eq_ok (hh.agrees_files hd) hmp
    rw [hid]
    refine ⟨hseen, Or.inr fun hattached ↦ ?_⟩
    obtain ⟨mp', hmp', hlegacy', -⟩ := hcarries.fillFromFd_files progId mode
    rw [hh.attached progId d hattached hd] at hmp
    cases hmp.symm.trans hmp'
    cases hlegacy.symm.trans hlegacy'
  | other hother => exact ⟨hseen, Or.inl hother⟩
  | unloaded => cases hlegacy

end Lookups

section Moves

variable {err : ℤ}

theorem Call.informed_retryOr : (c.retryOr err).pc.Informed h := by
  unfold Call.retryOr
  split_ifs
  · trivial
  · exact fun hne ↦ absurd rfl hne
  · trivial

theorem Call.informed_lookedUp {mp : Except ℤ XdpMultiprog}
    (hmp : ∀ mp', mp = .ok mp' → mp'.isLegacy = true → h.Gone mp'.mainId) :
    (c.lookedUp mp).pc.Informed h := by
  have hsome : ∀ mp', mp = .ok mp' → ∀ mp'' ∈ some mp', mp''.isLegacy = true → h.Gone mp''.mainId := by
    rintro mp' hmp' mp'' ⟨⟩
    exact hmp mp' hmp'
  unfold Call.lookedUp
  split
  · split_ifs
    · trivial
    · cases mp with
      | error err => exact fun mp' hmp' ↦ nomatch hmp'
      | ok mp' => exact hsome mp' rfl
  · split
    · trivial
    · split
      · exact informed_retryOr
      · exact hsome _ rfl
      · exact hsome _ rfl
  · split
    · trivial
    · split_ifs
      · trivial
      · exact hsome _ rfl

theorem Call.informed_fromId {n : ℕ} {progId : UInt32} (hseen : h.seen progId)
    {mp : Except ℤ XdpMultiprog}
    (hmp : ∀ mp', mp = .ok mp' → mp'.isLegacy = true → h.Gone mp'.mainId) :
    (c.fromId n progId mp).pc.Informed h := by
  unfold Call.fromId
  split
  · exact informed_lookedUp hmp
  · split_ifs
    · exact informed_lookedUp fun _ hok ↦ nomatch hok
    · exact fun _ ↦ hseen
    · exact informed_lookedUp hmp

theorem Call.informed_queried {n : ℕ} {progId : UInt32} (hh : h.Ok order)
    (hseen : progId ≠ 0 → h.seen progId) : (c.queried n progId h.attached).pc.Informed h := by
  unfold Call.queried
  dsimp only
  split_ifs with hzero
  · exact informed_lookedUp fun _ hok ↦ nomatch hok
  · change h.seen _
    cases hattached : h.attached with
    | none =>
      rw [hattached] at hzero
      exact hseen hzero
    | some a => exact hh.seen a.1 (by rw [Host.attachedId, hattached]; rfl)

theorem Call.informed_generateFailed : (c.generateFailed err).pc.Informed h := by
  unfold Call.generateFailed
  split
  · split_ifs <;> trivial
  · exact informed_retryOr

theorem Call.informed_pinFailed : (c.pinFailed err).pc.Informed h := by
  unfold Call.pinFailed
  split
  · trivial
  · exact informed_retryOr

theorem Call.informed_attachFailed {new : Option UInt32} :
    (c.attachFailed new err).pc.Informed h := by
  unfold Call.attachFailed
  split
  · trivial
  · trivial
  · exact informed_retryOr

theorem Call.informed_attached {oldMp : Option XdpMultiprog} {new : Option UInt32} :
    (c.attached oldMp new).pc.Informed h := by
  unfold Call.attached
  dsimp only
  split
  · trivial
  · split_ifs <;> trivial

theorem Call.informed_unpinnedOld {replaced : Bool} :
    (c.unpinnedOld replaced err).pc.Informed h := by
  unfold Call.unpinnedOld
  split_ifs
  · trivial
  · split
    · trivial
    · exact informed_retryOr

theorem Call.informed_start (r : Request) : (Call.start r).pc.Informed h := by
  have hquery : (Pc.query 0 0).Informed h := fun hne ↦ absurd rfl hne
  have hfirst : ∀ p : Prop, [Decidable p] →
      (if p then Pc.done (-einval) else Pc.query 0 0).Informed h := by
    intro p _
    split_ifs
    · trivial
    · exact hquery
  cases r with
  | attachMulti progs mode skip => exact hfirst _
  | detachMulti progs mode => exact hfirst _
  | multiprogDetach => exact hquery

end Moves

section Steps

theorem Client.Informed.mono (hl : l.Informed h) (hseen : ∀ id, h.seen id → h'.seen id)
    (hgone : ∀ id, h.Gone id → h'.Gone id) : l.Informed h' := by
  have hold : ∀ oldMp : Option XdpMultiprog,
      (∀ mp ∈ oldMp, mp.isLegacy = true → h.Gone mp.mainId) →
      ∀ mp ∈ oldMp, mp.isLegacy = true → h'.Gone mp.mainId :=
    fun _ hold mp hmp hlegacy ↦ hgone _ (hold mp hmp hlegacy)
  cases l with
  | idle => trivial
  | dead => trivial
  | busy c =>
    unfold Client.Informed at hl ⊢
    dsimp only at hl ⊢
    cases hpc : c.pc with
    | query n progId =>
      rw [hpc] at hl
      exact fun hne ↦ hseen _ (hl hne)
    | getFd | read =>
      rw [hpc] at hl
      exact hseen _ hl
    | generate | pin | attach =>
      rw [hpc] at hl
      exact hold _ hl
    | attachSingle | unpinNew | unpinOld | done => trivial

theorem Step.seen_mono (hstep : Step order K e (h, l) (h', l')) {id : UInt32} (hid : h.seen id) :
    h'.seen id := by
  cases hstep with
  | attached => exact Or.inl hid
  | single => exact Or.inl hid
  | _ => exact hid

/-- No dispatcher is attached twice. -/
theorem Step.gone (hK : K.replaces = true) (hstep : Step order K e (h, l) (h', l'))
    (hl : l.Ok order h) {id : UInt32} (hid : h.Gone id) : h'.Gone id := by
  obtain ⟨hseen, hgone⟩ := hid
  cases hstep with
  | @generated _ c oldMp env g new hpc hgen hnew =>
    have hne : id ≠ new := fun heq ↦ hnew.2.2 (heq ▸ hseen)
    exact ⟨hseen, hgone.imp_left (Host.dispatchers_load_of_ne hne).trans⟩
  | @attached _ c oldMp new mode a hpc hold hk =>
    refine ⟨Or.inl hseen, Or.inr fun hattached ↦ ?_⟩
    obtain rfl : new = some id := (hk.eq_of_ok hK).2.symm.trans hattached
    exact (Call.Ok.at_pc hl hpc).2.2.2.1 hseen
  | @single _ c prog id' a hpc hprog hid' hother hk =>
    refine ⟨Or.inl hseen, or_iff_not_imp_right.mpr fun hattached ↦ ?_⟩
    obtain rfl : id = id' :=
      Option.some_inj.mp ((not_not.mp hattached).symm.trans (hk.eq_of_ok hK).2)
    exact hother
  | _ => exact ⟨hseen, hgone⟩

/-- A call whose files can be worked on is never wrong about what is gone. -/
theorem Step.informed (hK : K.replaces = true) (hstep : Step order K e (h, l) (h', l'))
    (he : e ≠ .impaired) (hh : h.Ok order) (hl : l.Ok order h) (hinformed : l.Informed h) :
    l'.Informed h' := by
  have hgone : ∀ id, h.Gone id → h'.Gone id := fun id ↦ hstep.gone hK hl
  cases hstep with
  | called hmode => exact Call.informed_start _
  | queryFailed hpc herr => exact Call.informed_lookedUp fun _ hok ↦ nomatch hok
  | @queried _ c n progId hpc =>
    have hseen : (Pc.query n progId).Informed h := hpc ▸ hinformed
    exact Call.informed_queried hh hseen
  | @getFdFailed _ c n progId mode err hpc herr hfreed =>
    have hseen : (Pc.getFd n progId mode).Informed h := hpc ▸ hinformed
    exact Call.informed_fromId hseen fun _ hok ↦ nomatch hok
  | @gotFd _ c n progId mode hpc =>
    have hseen : (Pc.getFd n progId mode).Informed h := hpc ▸ hinformed
    exact hseen
  | @read _ c n progId mode e mp hpc hread =>
    have hseen : (Pc.read n progId mode).Informed h := hpc ▸ hinformed
    exact Call.informed_fromId hseen fun mp' hok hlegacy ↦ (hok ▸ hread).gone hh hseen hlegacy
  | generateFailed hpc hgen herr he => exact Call.informed_generateFailed
  | @generated _ c oldMp env g new hpc hgen hnew =>
    have hold : (Pc.generate oldMp).Informed h := hpc ▸ hinformed
    exact fun mp hmp hlegacy ↦ hgone _ (hold mp hmp hlegacy)
  | pinFailed hpc herr => exact Call.informed_pinFailed
  | @pinned _ c oldMp new d hpc hd =>
    have hold : (Pc.pin oldMp new).Informed h := hpc ▸ hinformed
    exact hold
  | attachInvalid hpc hmp => exact Call.informed_attachFailed
  | attachFailed hpc hk => exact Call.informed_attachFailed
  | attached hpc hold hk => exact Call.informed_attached
  | unpinnedNew hpc => exact Call.informed_retryOr
  | unpinnedOld hpc => exact Call.informed_unpinnedOld
  | singleFailed | single | returned | died | diedPinning | diedUnpinning | generateFault => trivial
  | readImpaired | pinImpaired | unpinNewImpaired | unpinOldImpaired => exact absurd rfl he

theorem Client.attached_of_holds {id : UInt32} (hid : h.attachedId = some id ∨ l.holds = some id)
    (hl : l.holds = none) : h.attachedId = some id := by
  refine hid.resolve_right fun hsome ↦ ?_
  cases hl.symm.trans hsome

/-- A call that could not attach its dispatcher goes on to unpin it. -/
theorem Call.Ok.holds_attachFailed (hc : c.Ok order h) {oldMp : Option XdpMultiprog}
    {new : Option UInt32} {mode : XdpAttachMode} (hpc : c.pc = .attach oldMp new mode) (err : ℤ)
    {id : UInt32} (hid : c.pc.holds = some id) : (c.attachFailed new err).pc.holds = some id := by
  obtain rfl : new = some id := (congrArg Pc.holds hpc).symm.trans hid
  obtain ⟨-, hprepared, -⟩ := hc.at_pc hpc
  obtain ⟨d, -, hmakes⟩ := hprepared.made
  unfold Call.attachFailed
  cases hrequest : c.request with
  | attachMulti progs mode skip => rfl
  | detachMulti progs mode => rfl
  | multiprogDetach =>
    rw [hrequest] at hmakes
    exact hmakes.elim

theorem Call.holds_attached_of_old {mp : XdpMultiprog} (hlegacy : mp.isLegacy = false)
    (new : Option UInt32) : (c.attached (some mp) new).pc.holds = some mp.mainId := by
  rw [Call.attached, if_neg (by rw [hlegacy]; decide)]
  rfl

/-- The files of the dispatcher that is attached, and of the one that a call has at its
disposal, pass from the one to the other, or are removed. -/
theorem Step.kept (hK : K.replaces = true) (hstep : Step order K e (h, l) (h', l'))
    (he : e ≠ .impaired ∧ e ≠ .died) (hh : h.Ok order) (hl : l.Ok order h)
    (hinformed : l.Informed h) {id : UInt32}
    (hid : h.attachedId = some id ∨ l.holds = some id) (hpins : (h'.pins id).isSome) :
    h'.attachedId = some id ∨ l'.holds = some id := by
  cases hstep with
  | called hmode => exact Or.inl (Client.attached_of_holds hid rfl)
  | queryFailed hpc
  | queried hpc
  | getFdFailed hpc
  | gotFd hpc
  | read hpc
  | generateFailed hpc
  | generated hpc
  | singleFailed hpc
  | returned hpc =>
    exact Or.inl (Client.attached_of_holds hid (congrArg Pc.holds hpc))
  | @pinFailed _ c oldMp new err hpc herr =>
    refine hid.imp_right fun hholds ↦ ?_
    obtain rfl : new = id := Option.some_inj.mp ((congrArg Pc.holds hpc).symm.trans hholds)
    rw [(Call.Ok.at_pc hl hpc).2.2.2.2] at hpins
    cases hpins
  | @pinned _ c oldMp new d hpc hd => exact hid.imp_right (congrArg Pc.holds hpc).symm.trans
  | attachInvalid hpc => exact hid.imp_right (Call.Ok.holds_attachFailed hl hpc _)
  | attachFailed hpc => exact hid.imp_right (Call.Ok.holds_attachFailed hl hpc _)
  | @attached _ c oldMp new mode a hpc hold hk =>
    obtain ⟨hseen, hnew⟩ := hk.eq_of_ok hK
    rcases hid with hattached | hholds
    · obtain ⟨mp, rfl, rfl⟩ := Option.map_eq_some_iff.mp (hseen.symm.trans hattached)
      have hinformed : (Pc.attach (some mp) new mode).Informed h := hpc ▸ hinformed
      cases hlegacy : mp.isLegacy with
      | false => exact Or.inr (Call.holds_attached_of_old hlegacy new)
      | true =>
        -- a dispatcher that is not recognised is not attached any more
        rcases (hinformed mp rfl hlegacy).2 with hother | hgone
        · have hnone : (h.pins mp.mainId).isSome := hpins
          rw [hh.pins_eq_none hother] at hnone
          cases hnone
        · exact absurd hattached hgone
    · exact Or.inl (hnew.trans ((congrArg Pc.holds hpc).symm.trans hholds))
  | @unpinnedNew _ c new err hpc =>
    refine hid.imp_right fun hholds ↦ ?_
    obtain rfl : new = id := Option.some_inj.mp ((congrArg Pc.holds hpc).symm.trans hholds)
    rw [Host.pins_setPins_self] at hpins
    cases hpins
  | @unpinnedOld _ c mp replaced hpc =>
    refine hid.imp_right fun hholds ↦ ?_
    obtain rfl : mp.mainId = id := Option.some_inj.mp ((congrArg Pc.holds hpc).symm.trans hholds)
    rw [Host.pins_setPins_self] at hpins
    cases hpins
  | @single _ c prog id' a hpc hprog hid' hother hk =>
    have hattached := Client.attached_of_holds hid (congrArg Pc.holds hpc)
    cases (hk.eq_of_ok hK).1.symm.trans hattached
  | generateFault | died | diedPinning | diedUnpinning => exact absurd rfl he.2
  | readImpaired | pinImpaired | unpinNewImpaired | unpinOldImpaired => exact absurd rfl he.1

end Steps

section Runs

variable {κ : Type} {turn : Turn κ Event (Option (UInt32 × XdpAttachMode))}
  {turns : List (Turn κ Event (Option (UInt32 × XdpAttachMode)))} {w w' : Host × (κ → Client)}

/-- A step of a client that comes to its end and finds its files in order. -/
def Orderly : Turn κ Event (Option (UInt32 × XdpAttachMode)) → Prop
  | .party _ e => e ≠ .impaired ∧ e ≠ .died
  | .world _ => False

structure Tidy (order : ByteOrder) (w : Host × (κ → Client)) : Prop where
  outline : (protocolOutline order).Holds w
  informed : ∀ k, (w.2 k).Informed w.1
  pins : ∀ id, (w.1.pins id).isSome → w.1.attachedId = some id ∨ ∃ k, (w.2 k).holds = some id

variable [DecidableEq κ]

theorem Tidy.step (hK : K.replaces = true) (hstep : Interleaved (Step order K) Foreign turn w w')
    (hturn : Orderly turn) (hw : Tidy order w) : Tidy order w' := by
  have houtline := (protocolOutline_stable hK).step hstep hw.outline
  cases hstep with
  | @party e h h' parties l k hstep =>
    have hh : h.Ok order := hw.outline.shared
    have hk : (parties k).Ok order h := hw.outline.party k
    refine ⟨houtline, fun i ↦ ?_, fun id hid ↦ ?_⟩
    · dsimp only
      by_cases hi : i = k
      · rw [hi, Function.update_self]
        exact hstep.informed hK hturn.1 hh hk (hw.informed k)
      · rw [Function.update_of_ne hi]
        exact (hw.informed i).mono (fun _ ↦ hstep.seen_mono) fun _ ↦ hstep.gone hK hk
    · have hkept : h.attachedId = some id ∨ (parties k).holds = some id →
          h'.attachedId = some id ∨ ∃ i, (Function.update parties k l i).holds = some id := by
        intro hk'
        refine (hstep.kept hK hturn hh hk (hw.informed k) hk' hid).imp_right fun hl ↦ ⟨k, ?_⟩
        rwa [Function.update_self]
      by_cases hk' : (parties k).holds = some id
      · exact hkept (Or.inr hk')
      · have hpins : (h.pins id).isSome := (hstep.effect hK).pins id hk' ▸ hid
        rcases hw.pins id hpins with hattached | ⟨i, hi⟩
        · exact hkept (Or.inl hattached)
        · have hne : i ≠ k := fun heq ↦ hk' (heq ▸ hi)
          exact Or.inr ⟨i, by dsimp only; rwa [Function.update_of_ne hne]⟩
  | world => exact hturn.elim

/-- When no call is under way the files in the BPF file system are those of the dispatcher that
is attached, whole, and no others. -/
theorem pins_when_idle {attached : Option (UInt32 × XdpAttachMode)} (hK : K.replaces = true)
    (hrun : Trace (Interleaved (Step order K) Foreign) turns (freshHost attached, fun _ ↦ .idle) w)
    (hturns : ∀ turn ∈ turns, Orderly turn) (hidle : ∀ k, w.2 k = .idle) (id : UInt32) :
    w.1.pins id =
      if w.1.attachedId = some id then (w.1.dispatchers id).map Dispatcher.files else none := by
  have htidy : Tidy order w := by
    refine hrun.invariant (P := Orderly) (fun _ _ _ hturn hstep ↦ Tidy.step hK hstep hturn) hturns ?_
    exact ⟨protocolOutline_fresh attached, fun _ ↦ trivial, fun _ hid ↦ nomatch hid⟩
  have hh : w.1.Ok order := htidy.outline.shared
  split_ifs with hid
  · exact hh.pins_attached hid
  · by_contra hne
    rcases htidy.pins id (Option.isSome_iff_ne_none.mpr hne) with hattached | ⟨k, hk⟩
    · exact hid hattached
    · rw [hidle k] at hk
      cases hk

theorem pins_when_idle_race : ∃ h : Host, h.attachedId = some 3 ∧
    h.pins 3 = (h.dispatchers 3).map Dispatcher.files ∧ h.pins 1 = none ∧ h.pins 2 = none := by
  obtain ⟨turns, turns', h₁, h₂, c, hrun, hrun', hturns, -, -, hcontent⟩ := exists_race
  have hid := Host.attachedId_of_content hcontent
  have hne : (some 3 : Option UInt32) ≠ some 1 ∧ (some 3 : Option UInt32) ≠ some 2 := by decide
  have hpins := pins_when_idle rfl (Trace.append_iff.mpr ⟨_, hrun, hrun'⟩) (fun turn hturn ↦ ?_)
    fun _ ↦ rfl
  · exact ⟨h₂, hid, (hpins 3).trans (if_pos hid), (hpins 1).trans (if_neg (hid ▸ hne.1)),
      (hpins 2).trans (if_neg (hid ▸ hne.2))⟩
  · obtain ⟨k, e, rfl, hattaching⟩ := hturns turn hturn
    constructor <;> rintro rfl <;> exact hattaching

end Runs

end KernelBypass.Libxdp
