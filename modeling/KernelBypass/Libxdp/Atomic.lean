import KernelBypass.Libxdp.Attaching

namespace KernelBypass.Libxdp

open Common.CommonParams Common.MapFiles Foundation Collect

/-- What a request is to do to an interface, at one moment. -/
inductive Applies : Request → Option Attachment → Option Attachment → Prop
  | first {progs : List XdpProgram} {mode : XdpAttachMode} {skip : Bool} {id : UInt32}
      {l es : List Entry} (hes : List.Forall₂ Joins progs es) (hperm : l.Perm es)
      (hlen : l.length ≤ maxDispatcherActions) :
      Applies (.attachMulti progs mode skip) none (some ⟨id, some l⟩)
  | added {progs : List XdpProgram} {mode : XdpAttachMode} {skip : Bool} {id id' : UInt32}
      {l l' es : List Entry} (hes : List.Forall₂ Joins progs es) (hperm : l'.Perm (l ++ es))
      (hlen : l'.length ≤ maxDispatcherActions) :
      Applies (.attachMulti progs mode skip) (some ⟨id, some l⟩) (some ⟨id', some l'⟩)
  | single {prog : XdpProgram} {mode : XdpAttachMode} {skip : Bool} {id : UInt32}
      (hid : ∀ info ∈ prog.progFd, id = info.id) :
      Applies (.attachMulti [prog] mode skip) none (some ⟨id, none⟩)
  | removed {progs : List XdpProgram} {mode : XdpAttachMode} {id id' : UInt32} {l l' : List Entry}
      (hfound : Found progs l)
      (hperm : l'.Perm (l.filter fun e ↦ ∀ q ∈ progs, q.progId ≠ e.id))
      (hlen : l'.length + progs.length = l.length) :
      Applies (.detachMulti progs mode) (some ⟨id, some l⟩) (some ⟨id', some l'⟩)
  | emptied {progs : List XdpProgram} {mode : XdpAttachMode} {id : UInt32} {l : List Entry}
      (hfound : Found progs l) (hlen : progs.length = l.length) :
      Applies (.detachMulti progs mode) (some ⟨id, some l⟩) none
  | unloaded {prog : XdpProgram} {mode : XdpAttachMode} {a : Attachment}
      (hid : prog.progId = a.mainId) : Applies (.detachMulti [prog] mode) (some a) none
  | cleared {a : Attachment} : Applies .multiprogDetach (some a) none

/-- A client of which one only sees whether its request has been applied. -/
inductive Progress
  | idle
  | pending (request : Request)
  | applied (request : Request)
  | dead

/-- A request is applied once between the call and its return, all at a time, or it is not
applied and an error is returned. An error after it has been applied can only come from a
request that takes programs away. -/
inductive AtomicStep : Event → Option Attachment × Progress → Option Attachment × Progress → Prop
  | called {r : Request} {a : Option Attachment} : AtomicStep (.called r) (a, .idle) (a, .pending r)
  | waited {e : Event} {a : Option Attachment} {p : Progress}
      (he : e = .moved ∨ e = .refused ∨ e = .impaired) : AtomicStep e (a, p) (a, p)
  | applied {r : Request} {a a' : Option Attachment} (h : Applies r a a') :
      AtomicStep .moved (a, .pending r) (a', .applied r)
  | refused {r : Request} {a : Option Attachment} {err : ℤ} (herr : err ≠ 0) :
      AtomicStep (.returned err) (a, .pending r) (a, .idle)
  | returned {r : Request} {a : Option Attachment} {err : ℤ}
      (herr : err = 0 ∨ r.removeProgs = true) : AtomicStep (.returned err) (a, .applied r) (a, .idle)
  | died {a : Option Attachment} {p : Progress} : AtomicStep .died (a, p) (a, .dead)

inductive AtomicForeign :
    Option (UInt32 × XdpAttachMode) → Option Attachment → Option Attachment → Prop
  | attached {attached : Option (UInt32 × XdpAttachMode)} {a : Option Attachment} :
      AtomicForeign attached a (attached.map fun b ↦ ⟨b.1, none⟩)

def Client.progress : Client → Progress
  | .idle => .idle
  | .busy c => if c.applied then .applied c.request else .pending c.request
  | .dead => .dead

variable {order : ByteOrder} {h h' : Host} {c c' : Call} {l l' : Client} {K : Kernel} {e : Event}

theorem progress_of_continues (hc : Continues c c') :
    (Client.busy c').progress = (Client.busy c).progress := by
  dsimp only [Client.progress]
  rw [hc.request, hc.applied]

theorem Call.Pending.progress (hc : c.Pending) :
    (Client.busy c).progress = .pending c.request := by
  rw [Client.progress, hc.applied]
  rfl

theorem progress_attached (oldMp : Option XdpMultiprog) (new : Option UInt32) :
    (Client.busy (c.attached oldMp new)).progress = .applied c.request := by
  have hfields : (c.attached oldMp new).request = c.request ∧
      (c.attached oldMp new).applied = true := by
    unfold Call.attached
    dsimp only
    split
    · exact ⟨rfl, rfl⟩
    · split_ifs <;> exact ⟨rfl, rfl⟩
  dsimp only [Client.progress]
  rw [hfields.1, if_pos hfields.2]

/-- At the moment at which its program is attached a request is applied. -/
theorem Call.Ok.applies (hh : h.Ok order) (hc : c.Ok order h) {oldMp : Option XdpMultiprog}
    {new : Option UInt32} {mode : XdpAttachMode} {a : Option (UInt32 × XdpAttachMode)}
    (hpc : c.pc = .attach oldMp new mode) (hold : ∀ mp ∈ oldMp, mp.mainId ≠ 0)
    (hseen : h.attachedId = oldMp.map XdpMultiprog.mainId) (hnew : a.map Prod.fst = new) :
    Applies c.request (h.content order) ((h.setAttached a).content order) := by
  have hc := hc.at_pc hpc
  cases new with
  | some id =>
    obtain ⟨-, hprepared, -⟩ := hc
    obtain ⟨d, hd, hmakes⟩ := hprepared.made
    have hlen : (d.entries order).length ≤ maxDispatcherActions := by
      obtain ⟨progs, hcarries⟩ := hh.carries id d hd
      rw [hcarries.entries_eq, List.length_map]
      exact hcarries.length_le
    have hcontent : (h.setAttached a).content order = some ⟨id, some (d.entries order)⟩ := by
      have hid : (h.setAttached a).attachedId = some id := hnew
      rw [Host.content_of_attached hid]
      exact congrArg (fun x ↦ some (Attachment.mk id (Option.map _ x))) hd
    rw [hcontent]
    cases hrequest : c.request with
    | attachMulti progs mode skip =>
      rw [hrequest] at hmakes
      obtain ⟨es, hes, hperm⟩ := hmakes
      cases oldMp with
      | none =>
        have hnone : h.content order = none := by
          rw [Host.content, hseen]
          rfl
        rw [hnone]
        exact .first hes hperm hlen
      | some mp =>
        obtain ⟨hknows, hlegacy⟩ := hprepared.old mp rfl
        rw [hknows.content hlegacy (hold mp rfl) hseen]
        exact .added hes hperm hlen
    | detachMulti progs mode =>
      rw [hrequest] at hmakes
      obtain ⟨hsome, hfound, hperm, hsum⟩ := hmakes
      obtain ⟨mp, rfl⟩ := Option.isSome_iff_exists.mp hsome
      obtain ⟨hknows, hlegacy⟩ := hprepared.old mp rfl
      rw [hknows.content hlegacy (hold mp rfl) hseen]
      exact .removed hfound hperm hsum
    | multiprogDetach =>
      rw [hrequest] at hmakes
      exact hmakes.elim
  | none =>
    obtain ⟨-, mp, rfl, hknows, hunloads⟩ := hc
    have hnone : (h.setAttached a).content order = none := by
      have hid : (h.setAttached a).attachedId = none := hnew
      rw [Host.content, hid]
      rfl
    rw [hnone]
    cases hrequest : c.request with
    | attachMulti progs mode skip =>
      rw [hrequest] at hunloads
      exact hunloads.elim
    | detachMulti progs mode =>
      rw [hrequest] at hunloads
      obtain ⟨-, prog, rfl, hid⟩ | ⟨hlegacy, hfound, hlen⟩ := hunloads
      · rw [Host.content_of_attached hseen]
        exact .unloaded hid
      · rw [hknows.content hlegacy (hold mp rfl) hseen]
        exact .emptied hfound hlen
    | multiprogDetach =>
      rw [Host.content_of_attached hseen]
      exact .cleared

theorem Call.Ok.applies_single (hc : c.Ok order h) {prog : XdpProgram} {id : UInt32}
    {a : Option (UInt32 × XdpAttachMode)} (hpc : c.pc = .attachSingle) (hprog : c.progs = [prog])
    (hid : ∀ info ∈ prog.progFd, id = info.id) (hother : h.dispatchers id = none)
    (hseen : h.attachedId = none) (hnew : a.map Prod.fst = some id) :
    Applies c.request (h.content order) ((h.setAttached a).content order) := by
  obtain ⟨hpending, hremove, -⟩ := hc.at_pc hpc
  have hnone : h.content order = none := by
    rw [Host.content, hseen]
    rfl
  have hcontent : (h.setAttached a).content order = some ⟨id, none⟩ := by
    have hid : (h.setAttached a).attachedId = some id := hnew
    rw [Host.content_of_attached hid]
    exact congrArg (fun x ↦ some (Attachment.mk id (Option.map _ x))) hother
  rw [hnone, hcontent]
  cases hrequest : c.request with
  | attachMulti progs mode skip =>
    have hprogs := hpending.progs
    rw [hrequest, hprog] at hprogs
    obtain ⟨p, _, hload, hrest, hcons⟩ := List.forall₂_cons_right_iff.mp hprogs
    obtain rfl := List.forall₂_nil_right_iff.mp hrest
    obtain rfl : progs = [p] := hcons
    exact .single fun info hinfo ↦ hid info (hload.kept info hinfo)
  | detachMulti progs mode =>
    rw [hrequest] at hremove
    cases hremove
  | multiprogDetach =>
    rw [hrequest] at hremove
    cases hremove

theorem AtomicStep.of_continues {a : Option Attachment}
    (he : e = .moved ∨ e = .refused ∨ e = .impaired) (hc : Continues c c') :
    AtomicStep e (a, (Client.busy c).progress) (a, (Client.busy c').progress) := by
  rw [progress_of_continues hc]
  exact .waited he

/-- Each step of a client is one of the atomic specification. -/
theorem Step.atomic (hK : K.replaces = true) (hstep : Step order K e (h, l) (h', l'))
    (hh : h.Ok order) (hl : l.Ok order h) :
    AtomicStep e (h.content order, l.progress) (h'.content order, l'.progress) := by
  cases hstep with
  | called hmode => exact .called
  | queryFailed hpc herr => exact .of_continues (Or.inr (Or.inl rfl)) (.lookedUp _)
  | queried hpc => exact .of_continues (Or.inl rfl) (.queried ..)
  | getFdFailed hpc herr hfreed => exact .of_continues (Or.inr (Or.inl rfl)) (.fromId ..)
  | gotFd hpc => exact .of_continues (Or.inl rfl) (.goto (Or.inl rfl))
  | read hpc hread => exact .of_continues (hread.event.imp_right Or.inl) (.fromId ..)
  | readImpaired hpc => exact .of_continues (Or.inr (Or.inr rfl)) (.fromId ..)
  | generateFailed hpc hgen herr he =>
    exact .of_continues (he.symm.imp And.left Or.inl) (.generateFailed _)
  | generateFault hpc hgen => exact .died
  | generated hpc hgen hnew =>
    rw [Host.content_load (mt (hh.seen _) hnew.2.2)]
    exact .waited (Or.inl rfl)
  | pinFailed hpc herr => exact .of_continues (Or.inr (Or.inl rfl)) (.pinFailed _)
  | pinImpaired hpc herr hleft => exact .of_continues (Or.inr (Or.inr rfl)) (.pinFailed _)
  | pinned hpc hd => exact .waited (Or.inl rfl)
  | attachInvalid hpc hmp =>
    exact .of_continues (Or.inl rfl) (.attachFailed (congrArg Pc.holds hpc) _)
  | attachFailed hpc hk =>
    exact .of_continues (Or.inr (Or.inl rfl)) (.attachFailed (congrArg Pc.holds hpc) _)
  | @attached _ c oldMp new mode a hpc hold hk =>
    obtain ⟨hseen, hnew⟩ := hk.eq_of_ok hK
    rw [progress_attached, (Call.Ok.pending_of_attach hl hpc).progress]
    exact .applied (Call.Ok.applies hh hl hpc hold hseen hnew)
  | unpinnedNew hpc => exact .of_continues (Or.inl rfl) (.retryOr _)
  | unpinNewImpaired hpc hleft => exact .of_continues (Or.inr (Or.inr rfl)) (.retryOr _)
  | unpinnedOld hpc => exact .of_continues (Or.inl rfl) (.unpinnedOld ..)
  | unpinOldImpaired hpc herr hleft =>
    exact .of_continues (Or.inr (Or.inr rfl)) (.unpinnedOld ..)
  | singleFailed hpc herr => exact .of_continues (Or.inr (Or.inl rfl)) (.goto (Or.inl rfl))
  | @single _ c prog id a hpc hprog hid hother hk =>
    obtain ⟨hseen, hnew⟩ := hk.eq_of_ok hK
    rw [(Call.Ok.at_pc hl hpc).1.progress]
    exact .applied (Call.Ok.applies_single hl hpc hprog hid hother hseen hnew)
  | @returned _ c err hpc =>
    obtain ⟨hzero, happlied⟩ := Call.Ok.at_pc hl hpc
    dsimp only [Client.progress]
    split_ifs with hc
    · exact .returned (happlied hc)
    · exact .refused fun herr ↦ hc (hzero herr)
  | died => exact .died
  | diedPinning hpc hleft => exact .died
  | diedUnpinning hpc hleft => exact .died

theorem Foreign.atomic {a : Option (UInt32 × XdpAttachMode)} (hforeign : Foreign a h h') :
    AtomicForeign a (h.content order) (h'.content order) := by
  cases hforeign with
  | attached hother =>
    have hcontent : (h.setAttached a).content order = a.map fun b ↦ ⟨b.1, none⟩ := by
      cases a with
      | none => rfl
      | some b => exact congrArg (fun x ↦ some (Attachment.mk b.1 (Option.map _ x))) (hother b rfl)
    rw [hcontent]
    exact .attached

section Runs

variable {κ : Type} {turns turns' : List (Turn κ Event (Option (UInt32 × XdpAttachMode)))}
  {w w' : Host × (κ → Client)}

variable [DecidableEq κ]

theorem atomic_of_run {attached : Option (UInt32 × XdpAttachMode)} (hK : K.replaces = true)
    (hrun : Trace (Interleaved (Step order K) Foreign) turns
      (freshHost attached, fun _ ↦ .idle) w) :
    Trace (Interleaved AtomicStep AtomicForeign) turns
      (attached.map fun a ↦ ⟨a.1, none⟩, fun _ ↦ .idle)
      (w.1.content order, fun k ↦ (w.2 k).progress) := by
  have hsim := (protocolOutline_stable hK).simulates id id (Host.content order) Client.progress
    (fun _ _ _ _ _ hstep hh hl ↦ hstep.atomic hK hh hl) (fun _ _ _ hstep _ ↦ hstep.atomic)
    hrun (protocolOutline_fresh attached)
  have hstart : (freshHost attached).content order = attached.map fun a ↦ ⟨a.1, none⟩ := by
    cases attached <;> rfl
  rw [hstart, Turn.map_id, List.map_id] at hsim
  exact hsim

/-- Whatever the clients and other programs do, and in whichever order, is what they would do
if every request was applied at one moment between its call and its return. -/
theorem protocol_is_atomic {attached : Option (UInt32 × XdpAttachMode)} (hK : K.replaces = true)
    (hrun : Trace (Interleaved (Step order K) Foreign) turns
      (freshHost attached, fun _ ↦ .idle) w) :
    Trace (Interleaved AtomicStep AtomicForeign) turns
      (attached.map fun a ↦ ⟨a.1, none⟩, fun _ ↦ .idle)
      (w.1.content order, fun k ↦ (w.2 k).progress) :=
  atomic_of_run hK hrun

theorem protocol_is_atomic_race : ∃ turns : List (Turn Bool Event _),
    .party true (.returned (-ebusy)) ∈ turns ∧
    Trace (Interleaved AtomicStep AtomicForeign) turns (none, fun _ ↦ .idle)
      (some ⟨3, some [⟨8, 10, 6, false⟩, ⟨7, 50, 4, false⟩]⟩, fun _ ↦ .idle) := by
  obtain ⟨turns, turns', h₁, h₂, c, hrun, hrun', -, hrefused, -, hcontent⟩ := exists_race
  have hatomic := protocol_is_atomic rfl (Trace.append_iff.mpr ⟨_, hrun, hrun'⟩)
  rw [hcontent] at hatomic
  exact ⟨turns ++ turns', List.mem_append_right _ hrefused, hatomic⟩

end Runs

section Stays

/-- A request that leaves a program alone: it names others, each of them once, and no
dispatcher. -/
def Spares (h : Host) (id : UInt32) : Request → Prop
  | .attachMulti _ _ _ => True
  | .detachMulti progs _ =>
    (progs.map XdpProgram.progId).Nodup ∧ id ∉ progs.map XdpProgram.progId ∧
      ∀ prog ∈ progs, h.dispatchers prog.progId = none
  | .multiprogDetach => False

def Host.Runs (order : ByteOrder) (h : Host) (e : Entry) : Prop :=
  ∃ id l, h.content order = some ⟨id, some l⟩ ∧ e ∈ l

/-- Programs that are all there and as many as there are, each named once, are all. -/
theorem mem_of_found {progs : List XdpProgram} {l : List Entry} (hfound : Found progs l)
    (hnodup : (progs.map XdpProgram.progId).Nodup) (hlen : progs.length = l.length) {e : Entry}
    (he : e ∈ l) : e.id ∈ progs.map XdpProgram.progId := by
  have hsub : progs.map XdpProgram.progId ⊆ l.map Entry.id := by
    intro id hid
    obtain ⟨prog, hprog, rfl⟩ := List.mem_map.mp hid
    obtain ⟨e, he, hid⟩ := hfound prog hprog
    exact List.mem_map.mpr ⟨e, he, hid⟩
  have hperm : (progs.map XdpProgram.progId).Perm (l.map Entry.id) :=
    (hnodup.subperm hsub).perm_of_length_le (by rw [List.length_map, List.length_map, hlen])
  exact hperm.mem_iff.mpr (List.mem_map_of_mem he)

theorem Applies.stays {r : Request} {a a' : Option Attachment} (happlies : Applies r a a')
    {e : Entry} {id : UInt32} {l : List Entry} (ha : a = some ⟨id, some l⟩) (he : e ∈ l)
    (hr : Spares h e.id r) (hid : (h.dispatchers id).isSome) :
    ∃ id' l', a' = some ⟨id', some l'⟩ ∧ e ∈ l' := by
  cases happlies with
  | first | single => cases ha
  | added hes hperm hlen =>
    cases ha
    exact ⟨_, _, rfl, hperm.mem_iff.mpr (List.mem_append_left _ he)⟩
  | removed hfound hperm hlen =>
    cases ha
    refine ⟨_, _, rfl, hperm.mem_iff.mpr (List.mem_filter.mpr ⟨he, decide_eq_true ?_⟩)⟩
    exact fun q hq heq ↦ hr.2.1 (List.mem_map.mpr ⟨q, hq, heq⟩)
  | emptied hfound hlen =>
    cases ha
    exact absurd (mem_of_found hfound hr.1 hlen he) hr.2.1
  | @unloaded prog mode a hprog =>
    cases ha
    have hnone := hr.2.2 prog (List.mem_singleton.mpr rfl)
    rw [hprog] at hnone
    rw [hnone] at hid
    cases hid
  | cleared => exact hr.elim

theorem AtomicStep.stays {a a' : Option Attachment} {p p' : Progress}
    (hstep : AtomicStep e (a, p) (a', p')) {x : Entry} {id : UInt32} {l : List Entry}
    (ha : a = some ⟨id, some l⟩) (hx : x ∈ l) (hp : ∀ r, p = .pending r → Spares h x.id r)
    (hid : (h.dispatchers id).isSome) : ∃ id' l', a' = some ⟨id', some l'⟩ ∧ x ∈ l' := by
  cases hstep with
  | called | waited | refused | returned | died => exact ⟨id, l, ha, hx⟩
  | applied happlies => exact happlies.stays ha hx (hp _ rfl) hid

theorem AtomicStep.request {P : Request → Prop} {a a' : Option Attachment} {p p' : Progress}
    (hstep : AtomicStep e (a, p) (a', p')) (he : ∀ r, e = .called r → P r)
    (hp : ∀ r, p = .pending r → P r) : ∀ r, p' = .pending r → P r := by
  cases hstep with
  | called =>
    intro r hr
    cases hr
    exact he _ rfl
  | waited => exact hp
  | applied | refused | returned | died =>
    intro r hr
    cases hr

variable {κ : Type} {turn : Turn κ Event (Option (UInt32 × XdpAttachMode))}
  {turns turns' : List (Turn κ Event (Option (UInt32 × XdpAttachMode)))}
  {w w' : Host × (κ → Client)}

structure Waiting (order : ByteOrder) (P : Request → Prop) (w : Host × (κ → Client)) : Prop where
  outline : (protocolOutline order).Holds w
  requests : ∀ k r, (w.2 k).progress = .pending r → P r

theorem Waiting.fresh (P : Request → Prop) (attached : Option (UInt32 × XdpAttachMode)) :
    Waiting order P (freshHost attached, fun _ : κ ↦ .idle) where
  outline := protocolOutline_fresh attached
  requests _ _ hidle := by cases hidle

variable [DecidableEq κ]

theorem dispatchers_grow (hK : K.replaces = true)
    (hstep : Interleaved (Step order K) Foreign turn w w') {id : UInt32} {d : Dispatcher}
    (hd : w.1.dispatchers id = some d) : w'.1.dispatchers id = some d := by
  cases hstep with
  | party k hstep => exact (hstep.effect hK).grows id d hd
  | world hforeign =>
    cases hforeign
    exact hd

theorem Waiting.step (hK : K.replaces = true) {P : Request → Prop}
    (hstep : Interleaved (Step order K) Foreign turn w w')
    (hcalls : ∀ k r, turn = .party k (.called r) → P r) (hw : Waiting order P w) :
    Waiting order P w' := by
  refine ⟨(protocolOutline_stable hK).step hstep hw.outline, ?_⟩
  cases hstep with
  | @party e h h' parties l i hstep =>
    intro k
    dsimp only
    by_cases hk : k = i
    · subst hk
      rw [Function.update_self]
      exact (hstep.atomic hK hw.outline.shared (hw.outline.party k)).request
        (fun r he ↦ hcalls k r (he ▸ rfl)) (hw.requests k)
    · rw [Function.update_of_ne hk]
      exact hw.requests k
  | world hforeign => exact hw.requests

theorem runs_of_step (hK : K.replaces = true) {x : Entry}
    (hstep : Interleaved (Step order K) Foreign turn w w') (hw : Waiting order (Spares h x.id) w)
    (hworld : ∀ b, turn ≠ .world b)
    (hgrows : ∀ id d, w.1.dispatchers id = some d → h.dispatchers id = some d)
    (hx : w.1.Runs order x) : w'.1.Runs order x := by
  cases hstep with
  | @party e h₁ h₂ parties l k hstep =>
    obtain ⟨id, l, hcontent, hxl⟩ := hx
    have hid : (h.dispatchers id).isSome := by
      obtain ⟨id', -, hid'⟩ := Option.map_eq_some_iff.mp hcontent
      obtain ⟨rfl, hchain⟩ := Attachment.mk.injEq .. ▸ hid'
      obtain ⟨d, hd, -⟩ := Option.map_eq_some_iff.mp hchain
      exact Option.isSome_iff_exists.mpr ⟨d, hgrows id' d hd⟩
    exact (hstep.atomic hK hw.outline.shared (hw.outline.party k)).stays hcontent hxl
      (hw.requests k) hid
  | world => exact absurd rfl (hworld _)

theorem runs_of_run (hK : K.replaces = true) {x : Entry}
    (hrun : Trace (Interleaved (Step order K) Foreign) turns w w')
    (hw : Waiting order (Spares w'.1 x.id) w) (hworld : ∀ b, .world b ∉ turns)
    (hcalls : ∀ k r, .party k (.called r) ∈ turns → Spares w'.1 x.id r)
    (hx : w.1.Runs order x) : w'.1.Runs order x := by
  induction hrun with
  | nil w => exact hx
  | @cons turn turns w u w' hstep hrun ih =>
    have hgrows : ∀ id d, w.1.dispatchers id = some d → w'.1.dispatchers id = some d := by
      intro id d hd
      refine hrun.invariant (I := fun u ↦ u.1.dispatchers id = some d) (P := fun _ ↦ True)
        (fun _ _ _ _ hstep ↦ dispatchers_grow hK hstep) (fun _ _ ↦ trivial) ?_
      exact dispatchers_grow hK hstep hd
    have hhead : ∀ k r, turn = .party k (.called r) → Spares w'.1 x.id r :=
      fun k r heq ↦ hcalls k r (heq ▸ List.mem_cons_self)
    refine ih (hw.step hK hstep hhead) (fun b hb ↦ hworld b (List.mem_cons_of_mem _ hb))
      (fun k r hmem ↦ hcalls k r (List.mem_cons_of_mem _ hmem)) ?_
    exact runs_of_step hK hstep hw (fun b heq ↦ hworld b (heq ▸ List.mem_cons_self)) hgrows hx

/-- A program that is in the chain stays there in every interleaving, as long as no call asks
for it, or for everything, to be taken away and no other program touches the interface. -/
theorem attached_program_stays {attached : Option (UInt32 × XdpAttachMode)} {x : Entry}
    (hK : K.replaces = true)
    (hrun : Trace (Interleaved (Step order K) Foreign) turns (freshHost attached, fun _ ↦ .idle) w)
    (hrun' : Trace (Interleaved (Step order K) Foreign) turns' w w') (hx : w.1.Runs order x)
    (hcalls : ∀ k r, .party k (.called r) ∈ turns ++ turns' → Spares w'.1 x.id r)
    (hworld : ∀ b, .world b ∉ turns') : w'.1.Runs order x := by
  have hw : Waiting order (Spares w'.1 x.id) w := by
    refine hrun.invariant (P := fun turn ↦ ∀ k r, turn = Turn.party k (.called r) → Spares w'.1 x.id r)
      (fun turn u v hturn hstep hu ↦ hu.step hK hstep hturn) (fun turn hturn k r heq ↦ ?_)
      (.fresh _ attached)
    exact hcalls k r (List.mem_append_left _ (heq ▸ hturn))
  exact runs_of_run hK hrun' hw hworld (fun k r hmem ↦ hcalls k r (List.mem_append_right _ hmem)) hx

theorem attached_program_stays_race : ∃ (h₁ h₂ : Host) (parties : Bool → Client) (turns : List _),
    h₁.Runs .little ⟨7, 50, 4, false⟩ ∧
    Trace (Interleaved (Step .little passKernel) Foreign) turns (h₁, parties) (h₂, fun _ ↦ .idle) ∧
    h₁.attachedId ≠ h₂.attachedId ∧ h₂.Runs .little ⟨7, 50, 4, false⟩ := by
  obtain ⟨turns, turns', h₁, h₂, c, hrun, hrun', hturns, -, hcontent, hcontent'⟩ := exists_race
  have hruns : h₁.Runs .little ⟨7, 50, 4, false⟩ := ⟨1, _, hcontent, List.mem_singleton.mpr rfl⟩
  refine ⟨h₁, h₂, _, turns', hruns, hrun', ?_, attached_program_stays rfl hrun hrun' hruns
    (fun k r hr ↦ ?_) fun b hb ↦ ?_⟩
  · rw [Host.attachedId_of_content hcontent, Host.attachedId_of_content hcontent']
    decide
  · obtain ⟨k', e, heq, hattaching⟩ := hturns _ hr
    cases heq
    obtain ⟨prog, rfl⟩ := hattaching
    trivial
  · obtain ⟨k, e, heq, -⟩ := hturns _ (List.mem_append_right _ hb)
    cases heq

end Stays

end KernelBypass.Libxdp
