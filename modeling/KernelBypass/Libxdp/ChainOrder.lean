import KernelBypass.Libxdp.Atomic

namespace KernelBypass.Libxdp

open Common.CommonParams Common.MapFiles Foundation Collect

section Steps

variable {order : ByteOrder} {K : Kernel} {h h' : Host} {c : Call} {l l' : Client} {e : Event}

def Request.SizesAgree : Request → Prop
  | .attachMulti progs _ _ => Libxdp.SizesAgree progs
  | _ => True

def Host.Prioritised (order : ByteOrder) (h : Host) : Prop :=
  ∀ id d, h.dispatchers id = some d →
    (d.entries order).Pairwise fun a b ↦ a.runPrio ≤ b.runPrio

theorem sizesAgree_of_loads {progs progs' : List XdpProgram} (h : List.Forall₂ Loads progs progs')
    (hsizes : SizesAgree progs) : SizesAgree progs' := by
  have hmem : ∀ a' ∈ progs', ∃ a ∈ progs, Loads a a' :=
    forall_mem_of_forall₂ h fun a ha a' hload ↦ ⟨a, ha, hload⟩
  intro a' ha' b' hb' hprio hname
  obtain ⟨a, ha, hloada⟩ := hmem a' ha'
  obtain ⟨b, hb, hloadb⟩ := hmem b' hb'
  rw [hloada.prio, hloadb.prio] at hprio
  rw [hloada.name, hloadb.name] at hname
  rw [hloada.object, hloadb.object]
  exact hsizes a ha b hb hprio hname

theorem Call.Pending.sizesAgree (hc : c.Pending) (hr : c.request.SizesAgree)
    (hadd : c.request.removeProgs = false) : SizesAgree c.progs := by
  refine sizesAgree_of_loads hc.progs ?_
  cases hrequest : c.request with
  | attachMulti progs mode skip =>
    rw [hrequest] at hr
    exact hr
  | detachMulti progs mode =>
    rw [hrequest] at hadd
    cases hadd
  | multiprogDetach =>
    rw [hrequest] at hadd
    cases hadd

theorem Step.prioritised (hstep : Step order K e (h, l) (h', l')) (hl : l.Ok order h)
    (hr : ∀ r, l.progress = .pending r → r.SizesAgree) (hh : h.Prioritised order) :
    h'.Prioritised order := by
  cases hstep with
  | @generated _ c oldMp env g new hpc hgen hnew =>
    obtain ⟨hpending, hold, -⟩ := Call.Ok.at_pc hl hpc
    intro id d hd
    by_cases hid : id = new
    · rw [hid, Host.dispatchers_load_self] at hd
      cases hd
      refine generate_sorted order hgen (fun mp hmp ↦ ?_) ?_
      · exact (hold mp hmp).loaded (generate_not_legacy hgen mp hmp)
      · exact hpending.sizesAgree (hr _ hpending.progress)
    · rw [Host.dispatchers_load_of_ne hid] at hd
      exact hh id d hd
  | _ => exact hh

end Steps

section Runs

variable {order : ByteOrder} {K : Kernel} {κ : Type} [DecidableEq κ]
  {turns : List (Turn κ Event (Option (UInt32 × XdpAttachMode)))} {w : Host × (κ → Client)}

/-- The chain of an interface is in the order of the priorities at every moment of every run,
as long as no call attaches two programs of one priority and name that differ in size. -/
theorem chain_in_priority_order {attached : Option (UInt32 × XdpAttachMode)} {id : UInt32}
    {l : List Entry} (hK : K.replaces = true)
    (hrun : Trace (Interleaved (Step order K) Foreign) turns (freshHost attached, fun _ ↦ .idle) w)
    (hcalls : ∀ k r, .party k (.called r) ∈ turns → r.SizesAgree)
    (hl : w.1.content order = some ⟨id, some l⟩) :
    l.Pairwise fun a b ↦ a.runPrio ≤ b.runPrio := by
  have hinv : Waiting order Request.SizesAgree w ∧ w.1.Prioritised order := by
    refine hrun.invariant
      (I := fun w ↦ Waiting order Request.SizesAgree w ∧ w.1.Prioritised order)
      (P := fun turn ↦ ∀ k r, turn = Turn.party k (.called r) → r.SizesAgree)
      (fun turn u v hturn hstep hu ↦ ⟨hu.1.step hK hstep hturn, ?_⟩) (fun turn hturn k r heq ↦ ?_)
      ⟨.fresh _ attached, ?_⟩
    · cases hstep with
      | party k hstep => exact hstep.prioritised (hu.1.outline.party k) (hu.1.requests k) hu.2
      | world hforeign =>
        cases hforeign
        exact hu.2
    · exact hcalls k r (heq ▸ hturn)
    · intro id d hd
      cases hd
  obtain ⟨id', -, hcontent⟩ := Option.map_eq_some_iff.mp hl
  obtain ⟨rfl, hchain⟩ := Attachment.mk.injEq .. ▸ hcontent
  obtain ⟨d, hd, rfl⟩ := Option.map_eq_some_iff.mp hchain
  exact hinv.2 id' d hd

theorem chain_in_priority_order_race : ∃ (h : Host) (l : List Entry),
    h.content .little = some ⟨3, some l⟩ ∧ l.map Entry.runPrio = [10, 50] ∧
      l.Pairwise fun a b ↦ a.runPrio ≤ b.runPrio := by
  obtain ⟨turns, turns', h₁, h₂, c, hrun, hrun', hturns, -, -, hcontent⟩ := exists_race
  refine ⟨h₂, _, hcontent, rfl, chain_in_priority_order rfl (Trace.append_iff.mpr ⟨_, hrun, hrun'⟩)
    (fun k r hr ↦ ?_) hcontent⟩
  obtain ⟨k', e, heq, hattaching⟩ := hturns _ hr
  cases heq
  obtain ⟨prog, rfl⟩ := hattaching
  exact sizesAgree_singleton prog

end Runs

end KernelBypass.Libxdp
