import KernelBypass.Libxdp.Ownership

namespace KernelBypass.Libxdp

open Common.CommonParams Common.MapFiles Foundation Collect

variable {order : ByteOrder} {K : Kernel} {h h' : Host} {c : Call}

/-- A call to which nothing is refused any more returns `err`, with its programs and the
interface as they are then. -/
def Completes (order : ByteOrder) (K : Kernel) (h : Host) (c : Call) (err : ℤ)
    (progs : List XdpProgram) (h' : Host) : Prop :=
  ∃ es c', (∀ e ∈ es, e = Event.moved) ∧ Trace (Step order K) es (h, .busy c) (h', .busy c') ∧
    c'.pc = .done err ∧ c'.progs = progs

/-- A call to which nothing is refused from the moment it is made. -/
def Granted (order : ByteOrder) (K : Kernel) (r : Request) (err : ℤ) (progs : List XdpProgram)
    (h h' : Host) : Prop :=
  ∃ es c, (∀ e ∈ es, e = Event.moved) ∧
    Trace (Step order K) (.called r :: es) (h, .idle) (h', .busy c) ∧
    c.pc = .done err ∧ c.progs = progs

section Calls

variable {r : Request} {err : ℤ} {progs : List XdpProgram}

theorem granted_iff : Granted order K r err progs h h' ↔
    r.mode ≠ .hw ∧ Completes order K h (.start r) err progs h' := by
  constructor
  · rintro ⟨es, c, hes, hrun, hc⟩
    cases hrun with
    | cons hstep hrun =>
      cases hstep with
      | called hmode => exact ⟨hmode, es, c, hes, hrun, hc⟩
  · rintro ⟨hmode, es, c, hes, hrun, hc⟩
    exact ⟨es, c, hes, .cons (.called hmode) hrun, hc⟩

theorem Granted.run (hcall : Granted order K r err progs h h') :
    ∃ es, (∀ e ∈ es, e = Event.moved) ∧
      Trace (Step order K) (.called r :: (es ++ [.returned err])) (h, .idle) (h', .idle) := by
  obtain ⟨es, c, hes, hrun, hpc, -⟩ := hcall
  exact ⟨es, hes, Trace.append_iff.mpr ⟨_, hrun, .cons (.returned hpc) (.nil _)⟩⟩

theorem Completes.after {h₁ : Host} {c₁ : Call} {es : List Event} (hes : ∀ e ∈ es, e = Event.moved)
    (hrun : Trace (Step order K) es (h, .busy c) (h₁, .busy c₁))
    (hrest : Completes order K h₁ c₁ err progs h') : Completes order K h c err progs h' := by
  obtain ⟨es', c', hes', hrun', hc'⟩ := hrest
  refine ⟨es ++ es', c', fun e he ↦ ?_, Trace.append_iff.mpr ⟨_, hrun, hrun'⟩, hc'⟩
  exact (List.mem_append.mp he).elim (hes e) (hes' e)

end Calls

theorem Kernel.Attaches.eq_map {attached a : Option (UInt32 × XdpAttachMode)}
    {new old : Option UInt32} {mode : XdpAttachMode} (hk : K.Attaches attached new old mode (.ok a)) :
    a = new.map (·, K.resolve mode) := by
  cases hk with
  | done => rfl
  | unlinked hnew =>
    rw [hnew]
    rfl

/-- However a call goes on to which nothing is refused, it returns with `Q`. -/
def Returns (order : ByteOrder) (K : Kernel) (Q : ℤ → List XdpProgram → Host → Prop) (h : Host)
    (c : Call) : Prop :=
  ∀ err progs h', Completes order K h c err progs h' → Q err progs h'

namespace Returns

variable {Q : ℤ → List XdpProgram → Host → Prop}

/-- A call that has not come to its end is followed to where it is after its next step. -/
theorem step (hpc : ∀ err, c.pc ≠ .done err)
    (hstep : ∀ x, Step order K .moved (h, .busy c) x → ∃ c', x.2 = .busy c' ∧
      Returns order K Q x.1 c') : Returns order K Q h c := by
  rintro err progs h' ⟨es, c', hes, hrun, hdone, hprogs⟩
  cases hrun with
  | nil => exact absurd hdone (hpc err)
  | @cons e es _ x _ hx hrun =>
    obtain ⟨rfl, hrest⟩ := List.forall_mem_cons.mp hes
    obtain ⟨h₁, l⟩ := x
    obtain ⟨c₁, rfl, hreturns⟩ := hstep _ hx
    exact hreturns err progs h' ⟨es, c', hrest, hrun, hdone, hprogs⟩

theorem done {err : ℤ} (hpc : c.pc = .done err) (hq : Q err c.progs h) : Returns order K Q h c := by
  rintro err' progs h' ⟨es, c', hes, hrun, hdone, rfl⟩
  cases hrun with
  | nil =>
    cases hpc.symm.trans hdone
    exact hq
  | @cons e es _ x _ hx hrun =>
    obtain ⟨rfl, -⟩ := List.forall_mem_cons.mp hes
    cases hx <;> cases hpc.symm.trans ‹_›

theorem queried {n : ℕ} {progId : UInt32} (hpc : c.pc = .query n progId)
    (hq : Returns order K Q h (c.queried n progId h.attached)) : Returns order K Q h c := by
  refine step (fun err hdone ↦ nomatch hpc.symm.trans hdone) fun x hx ↦ ?_
  cases hx with
  | queried hpc' =>
    cases hpc.symm.trans hpc'
    exact ⟨_, rfl, hq⟩
  | _ => cases hpc.symm.trans ‹_›

theorem gotFd {n : ℕ} {progId : UInt32} {mode : XdpAttachMode} (hpc : c.pc = .getFd n progId mode)
    (hq : Returns order K Q h (c.goto (.read n progId mode))) : Returns order K Q h c := by
  refine step (fun err hdone ↦ nomatch hpc.symm.trans hdone) fun x hx ↦ ?_
  cases hx with
  | gotFd hpc' =>
    cases hpc.symm.trans hpc'
    exact ⟨_, rfl, hq⟩
  | _ => cases hpc.symm.trans ‹_›

theorem read {n : ℕ} {progId : UInt32} {mode : XdpAttachMode} (hpc : c.pc = .read n progId mode)
    (hq : ∀ mp, Reads order h progId mode .moved mp → Returns order K Q h (c.fromId n progId mp)) :
    Returns order K Q h c := by
  refine step (fun err hdone ↦ nomatch hpc.symm.trans hdone) fun x hx ↦ ?_
  cases hx with
  | read hpc' hread =>
    cases hpc.symm.trans hpc'
    exact ⟨_, rfl, hq _ hread⟩
  | _ => cases hpc.symm.trans ‹_›

/-- A dispatcher that can be generated where everything is granted is generated. -/
theorem generated {oldMp : Option XdpMultiprog} (hpc : c.pc = .generate oldMp)
    (hgen : ∀ env : GenerateEnv, env.Grants →
      ∃ g, generate env c.progs oldMp c.request.removeProgs = .ok g)
    (hq : ∀ env g new, generate env c.progs oldMp c.request.removeProgs = .ok g →
      (new ≠ 0 ∧ h.dispatchers new = none ∧ ¬ h.seen new) →
      Returns order K Q (h.load new (g.dispatcher order))
        { c with progs := c.linkedBy env, pc := .pin oldMp new }) : Returns order K Q h c := by
  refine step (fun err hdone ↦ nomatch hpc.symm.trans hdone) fun x hx ↦ ?_
  cases hx with
  | @generateFailed _ _ _ env err _ hpc' hgen' herr he =>
    cases hpc.symm.trans hpc'
    obtain ⟨-, henv⟩ := he.resolve_left Event.noConfusion
    obtain ⟨g, hg⟩ := hgen env henv
    cases hgen'.symm.trans hg
  | generated hpc' hg hnew =>
    cases hpc.symm.trans hpc'
    exact ⟨_, rfl, hq _ _ _ hg hnew⟩
  | _ => cases hpc.symm.trans ‹_›

theorem pinned {oldMp : Option XdpMultiprog} {new : UInt32} {d : Dispatcher}
    (hpc : c.pc = .pin oldMp new) (hd : h.dispatchers new = some d)
    (hq : Returns order K Q (h.setPins new (some d.files))
      (c.goto (.attach oldMp (some new) c.request.mode))) : Returns order K Q h c := by
  refine step (fun err hdone ↦ nomatch hpc.symm.trans hdone) fun x hx ↦ ?_
  cases hx with
  | pinned hpc' hd' =>
    cases hpc.symm.trans hpc'
    cases hd.symm.trans hd'
    exact ⟨_, rfl, hq⟩
  | _ => cases hpc.symm.trans ‹_›

theorem attached {oldMp : Option XdpMultiprog} {new : Option UInt32} {mode : XdpAttachMode}
    (hpc : c.pc = .attach oldMp new mode) (hold : ∀ mp ∈ oldMp, mp.mainId ≠ 0)
    (hq : Returns order K Q (h.setAttached (new.map (·, K.resolve mode))) (c.attached oldMp new)) :
    Returns order K Q h c := by
  refine step (fun err hdone ↦ nomatch hpc.symm.trans hdone) fun x hx ↦ ?_
  cases hx with
  | attachInvalid hpc' hmp =>
    cases hpc.symm.trans hpc'
    exact absurd hmp (hold _ rfl)
  | attached hpc' _ hk =>
    cases hpc.symm.trans hpc'
    rw [hk.eq_map]
    exact ⟨_, rfl, hq⟩
  | _ => cases hpc.symm.trans ‹_›

theorem unpinnedOld {oldMp : XdpMultiprog} {replaced : Bool} (hpc : c.pc = .unpinOld oldMp replaced)
    (hq : Returns order K Q (h.setPins oldMp.mainId none) (c.unpinnedOld replaced 0)) :
    Returns order K Q h c := by
  refine step (fun err hdone ↦ nomatch hpc.symm.trans hdone) fun x hx ↦ ?_
  cases hx with
  | unpinnedOld hpc' =>
    cases hpc.symm.trans hpc'
    exact ⟨_, rfl, hq⟩
  | _ => cases hpc.symm.trans ‹_›

end Returns

end KernelBypass.Libxdp
