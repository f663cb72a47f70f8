import KernelBypass.Libxdp.Atomic

namespace KernelBypass.Libxdp

open Common.CommonParams Foundation Bitmap

variable (order : ByteOrder) {m : Type → Type} (code : UInt32 → m UInt32)

/-- The programs behind the links of a directory. A link that is not pinned there is gone as
soon as the process that has made it ends. -/
def pinnedLinks (dir : Option PinDir) (i : ℕ) : Option (m UInt32) :=
  (dir.bind (·.lookup (.link i))).map fun info ↦ code info.id

def Host.run [Monad m] (h : Host) : m UInt32 :=
  match h.attachedId with
  | none => pure xdpPass
  | some id =>
    match h.dispatchers id with
    | none => code id
    | some d => runDispatcher (.ofBytes order d.rodata) (pinnedLinks code (h.pins id))

/-- The program of an entry. The results after which the next one is run are those that it is
configured with, and `XDP_DISPATCHER_RETVAL`. -/
def Entry.component (e : Entry) : Component m :=
  ⟨code e.id, has (e.chainCallActions ||| 1 <<< xdpDispatcherRetval)⟩

/-- What an interface is to do: run the programs of the chain one after the other. A program
that is alone in its dispatcher has its own result. -/
def Attachment.run [Monad m] (a : Attachment) : m UInt32 :=
  match a.chain with
  | none => code a.mainId
  | some [e] => code e.id
  | some l => runChain (l.map (Entry.component code))

section Chain

variable {order code} {progs : List XdpProgram} {d : Dispatcher}

theorem linkedFrom_map {links : ℕ → Option (m UInt32)} {i : ℕ}
    (hlinks : ∀ j prog, progs[j]? = some prog → links (i + j) = some (code prog.progId)) :
    linkedFrom links i (progs.map fun prog ↦ prog.chainCallActions ||| 1 <<< xdpDispatcherRetval) =
      progs.map (Entry.component code ∘ XdpProgram.entry) := by
  induction progs generalizing i with
  | nil => rfl
  | cons prog progs ih =>
    have hhead : links i = some (code prog.progId) := hlinks 0 prog rfl
    have htail : ∀ j prog', progs[j]? = some prog' → links (i + 1 + j) = some (code prog'.progId) := by
      intro j prog' hj
      rw [Nat.add_assoc, Nat.add_comm 1 j]
      exact hlinks (j + 1) prog' hj
    rw [List.map_cons, linkedFrom, hhead, ih htail]
    rfl

theorem toList_tenWords {l : List UInt32} (hl : l.length ≤ maxDispatcherActions) :
    ∃ rest, (tenWords l).toList = l ++ rest := by
  have hpre : l <+: (tenWords l).toList := by
    rw [List.prefix_iff_getElem?]
    intro i hi
    rw [getElem?_tenWords l (hi.trans_le hl), List.getD_eq_getElem l 0 hi]
  obtain ⟨rest, hrest⟩ := hpre
  exact ⟨rest, hrest.symm⟩

theorem Dispatcher.Carries.pinnedLinks_files (h : d.Carries order progs) {i : ℕ}
    {prog : XdpProgram} (hprog : progs[i]? = some prog) :
    pinnedLinks code (some d.files) i = some (code prog.progId) := by
  obtain ⟨info, hinfo, hreadable⟩ := h.info_eq hprog
  have hfile := (lookup_pinFiles d.linked 0 i).1
  rw [Nat.zero_add, hinfo] at hfile
  rw [pinnedLinks, Option.bind_some, Dispatcher.files, hfile, XdpProgram.progId, hreadable.fd]
  rfl

theorem has_retval_of_mem_map : ∀ actions ∈ progs.map (fun prog ↦
    prog.chainCallActions ||| 1 <<< xdpDispatcherRetval), has actions xdpDispatcherRetval := by
  intro actions hactions
  obtain ⟨prog, -, rfl⟩ := List.mem_map.mp hactions
  rw [has_or_bit, decide_eq_true rfl, Bool.or_true]

variable [Monad m]

theorem Attachment.run_of_length_ne_one {l : List Entry} (hl : l.length ≠ 1) (id : UInt32) :
    Attachment.run code ⟨id, some l⟩ = runChain (l.map (Entry.component code)) := by
  cases l with
  | nil => rfl
  | cons e l =>
    cases l with
    | nil => exact absurd rfl hl
    | cons e' l => rfl

/-- A dispatcher runs the programs that are still linked to it. -/
theorem Dispatcher.Carries.xdpDispatcher_eq [LawfulMonad m] (h : d.Carries order progs)
    (links : ℕ → Option (m UInt32)) : xdpDispatcher (.ofBytes order d.rodata) (slotOf links) =
      runChain (linkedFrom links 0 (progs.map fun prog ↦
        prog.chainCallActions ||| 1 <<< xdpDispatcherRetval)) := by
  obtain ⟨frags, hrodata⟩ := h.rodata
  have hnum := numProgsEnabled_populate frags h.length_le
  obtain ⟨rest, hrest⟩ := toList_tenWords (l := progs.map fun prog ↦
    prog.chainCallActions ||| 1 <<< xdpDispatcherRetval) (by rw [List.length_map]; exact h.length_le)
  rw [hrodata, DispatcherConfig.ofBytes_bytes]
  exact xdpDispatcher_eq_runChain links _ _ rest hrest (by rw [hnum, List.length_map])
    has_retval_of_mem_map

/-- A dispatcher that has lost its links passes every packet. -/
theorem Dispatcher.Carries.run_unpinned [LawfulMonad m] (h : d.Carries order progs) :
    runDispatcher (.ofBytes order d.rodata) (pinnedLinks code none) = pure xdpPass := by
  have hnone : ∀ (l : List UInt32) (i : ℕ), linkedFrom (pinnedLinks code none) i l = [] := by
    intro l
    induction l with
    | nil => exact fun _ ↦ rfl
    | cons actions l ih => exact fun i ↦ ih (i + 1)
  have hrun := h.xdpDispatcher_eq (pinnedLinks code none)
  rw [hnone] at hrun
  unfold runDispatcher
  split_ifs <;> exact hrun

/-- A dispatcher whose links are all pinned runs the chain of its entries. -/
theorem Dispatcher.Carries.run_eq [LawfulMonad m] (h : d.Carries order progs) (id : UInt32) :
    runDispatcher (.ofBytes order d.rodata) (pinnedLinks code (some d.files)) =
      Attachment.run code ⟨id, some (d.entries order)⟩ := by
  have hnum : (DispatcherConfig.ofBytes order d.rodata).numProgsEnabled.toNat = progs.length := by
    obtain ⟨frags, hrodata⟩ := h.rodata
    rw [hrodata, DispatcherConfig.ofBytes_bytes, numProgsEnabled_populate frags h.length_le]
  have hlinks : ∀ i prog, progs[i]? = some prog →
      pinnedLinks code (some d.files) i = some (code prog.progId) :=
    fun i prog ↦ h.pinnedLinks_files
  rw [h.entries_eq, runDispatcher]
  by_cases hone : progs.length = 1
  · obtain ⟨prog, rfl⟩ := List.length_eq_one_iff.mp hone
    rw [if_pos (UInt8.toNat_inj.mp hnum), hlinks 0 prog rfl]
    rfl
  · have hne : (DispatcherConfig.ofBytes order d.rodata).numProgsEnabled ≠ 1 := by
      intro heq
      rw [heq] at hnum
      exact hone hnum.symm
    have hlinked := linkedFrom_map (i := 0) fun i prog hprog ↦ by
      rw [Nat.zero_add]
      exact hlinks i prog hprog
    rw [if_neg hne, Attachment.run_of_length_ne_one (by rwa [List.length_map]), List.map_map,
      ← hlinked]
    exact h.xdpDispatcher_eq _

end Chain

theorem oneSlot_populate (frags : Bool) (prog : XdpProgram) :
    OneSlot (populate frags [prog]) prog.chainCallActions := by
  obtain ⟨rest, hrest⟩ := toList_tenWords
    (l := [prog].map fun prog ↦ prog.chainCallActions ||| 1 <<< xdpDispatcherRetval)
    (by decide : 1 ≤ 10)
  refine ⟨rfl, ?_⟩
  change (tenWords _).toList.head? = _
  rw [hrest]
  rfl

/-- To link the only program of a dispatcher to the dispatcher itself makes no difference,
whatever the program does, exactly where it is not to be followed by others after anything
but `XDP_PASS`. -/
theorem shortcut_agrees_iff (frags : Bool) (prog : XdpProgram) :
    (∀ (p : Linux.XdpProgram Linux.XdpAction) (links : ℕ → Option (Linux.XdpProgram UInt32)),
      links 0 = some (actionCode <$> p) →
        runDispatcher (populate frags [prog]) links =
          xdpDispatcher (populate frags [prog]) (slotOf links)) ↔
      ∀ a, prog.chainCallEnabled (actionCode a) → a = .pass := by
  have hhas : ∀ a, prog.chainCallEnabled (actionCode a) = has prog.chainCallActions (actionCode a) := by
    intro a
    rw [prog.chainCallEnabled_eq]
    cases a <;> exact Bool.true_and _
  rw [(oneSlot_populate frags prog).agrees_iff]
  simp only [hhas]

variable {order}

theorem Host.Ok.run_eq [Monad m] [LawfulMonad m] {h : Host} (hh : h.Ok order) :
    h.run order code = (h.content order).elim (pure xdpPass) (Attachment.run code) := by
  rw [Host.run, Host.content]
  cases hid : h.attachedId with
  | none => rfl
  | some id =>
    dsimp only [Option.map_some, Option.elim_some]
    cases hd : h.dispatchers id with
    | none => rfl
    | some d =>
      obtain ⟨progs, hcarries⟩ := hh.carries id d hd
      dsimp only [Option.map_some]
      rw [hh.attached id d hid hd, hcarries.run_eq id]

variable {κ : Type} [DecidableEq κ] {K : Kernel}
  {turns : List (Turn κ Event (Option (UInt32 × XdpAttachMode)))} {w : Host × (κ → Client)}

/-- At every moment of every run, also after processes have ended or left files behind, the
interface runs all programs of the chain that its requests have made one at a time, in the order
of that chain, and no others. -/
theorem packets_run_chain [Monad m] [LawfulMonad m] {attached : Option (UInt32 × XdpAttachMode)}
    (hK : K.replaces = true)
    (hrun : Trace (Interleaved (Step order K) Foreign) turns
      (freshHost attached, fun _ ↦ .idle) w) :
    Trace (Interleaved AtomicStep AtomicForeign) turns
        (attached.map fun a ↦ ⟨a.1, none⟩, fun _ ↦ .idle)
        (w.1.content order, fun k ↦ (w.2 k).progress) ∧
      w.1.run order code = (w.1.content order).elim (pure xdpPass) (Attachment.run code) := by
  have hw := (protocolOutline_stable hK).run hrun (protocolOutline_fresh attached)
  exact ⟨atomic_of_run hK hrun, hw.shared.run_eq code⟩

def recording (id : UInt32) : StateM (List UInt32) UInt32 := do
  modify (id :: ·)
  return if id = 8 then 1 else 3

theorem packets_run_chain_race : ∃ h : Host,
    h.content .little = some ⟨3, some [⟨8, 10, 6, false⟩, ⟨7, 50, 4, false⟩]⟩ ∧
    (h.run .little recording).run [] = (3, [7, 8]) := by
  obtain ⟨turns, turns', h₁, h₂, c, hrun, hrun', -, -, -, hcontent⟩ := exists_race
  obtain ⟨-, hchain⟩ := packets_run_chain recording rfl (Trace.append_iff.mpr ⟨_, hrun, hrun'⟩)
  refine ⟨h₂, hcontent, ?_⟩
  rw [hchain, hcontent]
  rfl

end KernelBypass.Libxdp
