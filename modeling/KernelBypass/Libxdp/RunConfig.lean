import KernelBypass.Foundation.Collect
import KernelBypass.Libxdp.Program

namespace KernelBypass.Libxdp

open Common.CommonParams Common.MapFiles Foundation Bitmap

section Configured

variable {prog prog' : XdpProgram} {m : Member} {members : List Member} {btf : Option Btf}

def valueOf (name : List UInt8) (m : Member) : Option UInt32 :=
  if m.name.map CString.bytes = some name then m.value else none

def lastValue (name : List UInt8) (members : List Member) : Option UInt32 :=
  (members.filterMap (valueOf name)).getLast?

def runConfigOf (btf : Option Btf) (name : CString) : List Member :=
  (getRunConfig btf name).toOption.getD []

theorem getXdpAction_eq_some {name : CString} {act : UInt32} (h : getXdpAction name = some act) :
    xdpActionNames[act.toNat]? = some name.bytes := by
  obtain ⟨i, hi, rfl⟩ := Option.map_eq_some_iff.mp h
  obtain ⟨hlt, hname, -⟩ := List.findIdx?_eq_some_iff_getElem.mp hi
  have hsmall : i < 5 := hlt
  rw [UInt32.toNat_ofNat', Nat.mod_eq_of_lt (by omega), List.getElem?_eq_getElem hlt]
  exact congrArg some (of_decide_eq_true hname)

/-- What a member of a run configuration does to a program. -/
theorem parseMember_eq_ok (h : parseMember prog m = .ok prog') :
    ∃ name val, m.name = some name ∧ m.value = some val ∧
      ((name.bytes = text "priority" ∧ prog' = { prog with runPrio := val }) ∨
        ∃ act, getXdpAction name = some act ∧ name.bytes ≠ text "priority" ∧
          prog' = (prog.setChainCallEnabled act (val ≠ 0)).toOption.getD prog) := by
  unfold parseMember at h
  split at h
  · cases h
  · rename_i name hname
    split at h
    · rename_i hprio
      split at h
      · cases h
      · rename_i val hval
        cases h
        exact ⟨name, val, hname, hval, Or.inl ⟨hprio, rfl⟩⟩
    · rename_i hprio
      split at h
      · cases h
      · rename_i act hact
        split at h
        · cases h
        · rename_i val hval
          refine ⟨name, val, hname, hval, Or.inr ⟨act, hact, hprio, ?_⟩⟩
          split at h <;> rename_i hset <;> cases h <;> rw [hset] <;> rfl

theorem XdpProgram.chainCallEnabled_eq (prog : XdpProgram) (action : UInt32) :
    prog.chainCallEnabled action =
      (decide (action < xdpDispatcherRetval) && has prog.chainCallActions action) := by
  simp only [chainCallEnabled, Bool.decide_and, and_bit_ne_zero_iff, Bool.decide_eq_true]

theorem XdpProgram.setChainCallEnabled_of_loaded (h : prog.progFd.isSome) (act : UInt32)
    (enabled : Bool) : prog.setChainCallEnabled act enabled = .error (-einval) :=
  dif_pos (Or.inl h)

/-- Setting an action of a program that is not loaded changes this action only. -/
theorem XdpProgram.setChainCallEnabled_of_unloaded (h : prog.progFd = none) {act : UInt32}
    (hact : act < xdpDispatcherRetval) (enabled : Bool) :
    ∃ prog', prog.setChainCallEnabled act enabled = .ok prog' ∧ prog'.progFd = none ∧
      prog'.runPrio = prog.runPrio ∧
      ∀ a, prog'.chainCallEnabled a = if a = act then enabled else prog.chainCallEnabled a := by
  have hne : ¬ (prog.progFd.isSome ∨ ¬ act < xdpDispatcherRetval) := by simp [h, hact]
  have hbit : ∀ a : UInt32, a < xdpDispatcherRetval →
      (a.toNat % 32 = act.toNat % 32 ↔ a = act) := by
    intro a ha
    have ha31 : a.toNat < 31 := ha
    have hact31 : act.toNat < 31 := hact
    rw [Nat.mod_eq_of_lt (by omega), Nat.mod_eq_of_lt (by omega), UInt32.toNat_inj]
  rw [setChainCallEnabled, dif_neg hne]
  cases enabled <;> refine ⟨_, rfl, h, rfl, fun a ↦ ?_⟩ <;>
    rw [chainCallEnabled_eq, chainCallEnabled_eq] <;> by_cases ha : a < xdpDispatcherRetval
  · by_cases heq : a = act <;> simp [has_and_not_bit, ha, hbit a ha, heq]
  · have heq : a ≠ act := fun heq ↦ ha (heq ▸ hact)
    simp [ha, heq]
  · by_cases heq : a = act
    · subst heq
      simp [has_or_bit, ha]
    · simp [has_or_bit, ha, hbit a ha, heq]
  · have heq : a ≠ act := fun heq ↦ ha (heq ▸ hact)
    simp [ha, heq]

theorem xdpActionNames_nodup : xdpActionNames.Nodup := by decide +kernel

theorem priority_notMem_xdpActionNames : text "priority" ∉ xdpActionNames := by decide +kernel

theorem valueOf_eq {name : CString} {val : UInt32} (hname : m.name = some name)
    (hval : m.value = some val) (key : List UInt8) :
    valueOf key m = if name.bytes = key then some val else none := by
  simp [valueOf, hname, hval]

def XdpProgram.identity (prog : XdpProgram) :
    Option BpfProgram × Option Btf × Option BpfProgInfo × CString × Bool :=
  (prog.bpfProg, prog.btf, prog.progFd, prog.progName, prog.isFrags)

theorem identity_parseMember (h : parseMember prog m = .ok prog') :
    prog'.identity = prog.identity := by
  obtain ⟨name, val, -, -, ⟨-, rfl⟩ | ⟨act, hact, -, rfl⟩⟩ := parseMember_eq_ok h
  · rfl
  · rw [XdpProgram.setChainCallEnabled]
    split_ifs <;> rfl

theorem progFd_parseMember (h : parseMember prog m = .ok prog') : prog'.progFd = prog.progFd :=
  congrArg (·.2.2.1) (identity_parseMember h)

theorem runPrio_parseMember (h : parseMember prog m = .ok prog') :
    prog'.runPrio = (valueOf (text "priority") m).getD prog.runPrio := by
  obtain ⟨name, val, hname, hval, ⟨hprio, rfl⟩ | ⟨act, hact, hprio, rfl⟩⟩ := parseMember_eq_ok h
  · rw [valueOf_eq hname hval, if_pos hprio]
    rfl
  · rw [valueOf_eq hname hval, if_neg hprio, XdpProgram.setChainCallEnabled]
    split_ifs <;> rfl

/-- The run configuration of a program that is loaded is read without effect on its
actions. -/
theorem chainCallActions_parseMember (h : parseMember prog m = .ok prog')
    (hfd : prog.progFd.isSome) : prog'.chainCallActions = prog.chainCallActions := by
  obtain ⟨name, val, hname, hval, ⟨hprio, rfl⟩ | ⟨act, hact, hprio, rfl⟩⟩ := parseMember_eq_ok h
  · rfl
  · rw [prog.setChainCallEnabled_of_loaded hfd]
    rfl

theorem chainCallEnabled_parseMember (h : parseMember prog m = .ok prog')
    (hfd : prog.progFd = none) {a : UInt32} {key : List UInt8}
    (hkey : xdpActionNames[a.toNat]? = some key) : prog'.chainCallEnabled a =
      ((valueOf key m).map fun val ↦ decide (val ≠ 0)).getD (prog.chainCallEnabled a) := by
  obtain ⟨name, val, hname, hval, ⟨hprio, rfl⟩ | ⟨act, hact, -, rfl⟩⟩ := parseMember_eq_ok h
  · have hne : name.bytes ≠ key := by
      rintro rfl
      exact priority_notMem_xdpActionNames (hprio ▸ List.mem_of_getElem? hkey)
    rw [valueOf_eq hname hval, if_neg hne]
    rfl
  · have hentry := getXdpAction_eq_some hact
    obtain ⟨hlt, -⟩ := List.getElem?_eq_some_iff.mp hentry
    have hlt31 : act < xdpDispatcherRetval := UInt32.lt_iff_toNat_lt.mpr (hlt.trans (by decide))
    obtain ⟨prog', hset, -, -, hall⟩ := prog.setChainCallEnabled_of_unloaded hfd hlt31 (val ≠ 0)
    have hiff : name.bytes = key ↔ a = act := by
      constructor
      · rintro rfl
        obtain ⟨_, hsame⟩ := List.getElem?_eq_some_iff.mp hkey
        obtain ⟨_, hname⟩ := List.getElem?_eq_some_iff.mp hentry
        exact UInt32.toNat_inj.mp
          (xdpActionNames_nodup.getElem_inj_iff.mp (hsame.trans hname.symm))
      · rintro rfl
        exact Option.some_inj.mp (hentry.symm.trans hkey)
    rw [hset, valueOf_eq hname hval]
    change prog'.chainCallEnabled a = _
    rw [hall]
    by_cases heq : a = act
    · rw [if_pos heq, if_pos (hiff.mpr heq)]
      rfl
    · rw [if_neg heq, if_neg (mt hiff.mp heq)]
      rfl

theorem parseMember_eq_error {err : ℤ} (h : parseMember prog m = .error err) :
    err ≠ 0 ∧ err ≠ -enoent := by
  unfold parseMember at h
  repeat' split at h
  all_goals cases h
  all_goals decide

theorem foldlM_parseMember_eq_error {err : ℤ}
    (h : members.foldlM parseMember prog = .error err) : err ≠ 0 ∧ err ≠ -enoent := by
  induction members generalizing prog with
  | nil => cases h
  | cons m members ih =>
    rw [List.foldlM_cons] at h
    cases hm : parseMember prog m with
    | ok prog' =>
      rw [hm] at h
      exact ih h
    | error e =>
      rw [hm] at h
      cases h
      exact parseMember_eq_error hm

theorem identity_of_trace (h : Trace (fun m s t ↦ parseMember s m = .ok t) members prog prog') :
    prog'.identity = prog.identity :=
  h.invariant (I := fun s ↦ s.identity = prog.identity) (P := fun _ ↦ True)
    (fun _ _ _ _ hstep hs ↦ (identity_parseMember hstep).trans hs) (fun _ _ ↦ trivial) rfl

theorem readRunConfig_cases (prog : XdpProgram) (btf : Option Btf) :
    (∃ err, readRunConfig prog btf = .error err ∧
        (err ≠ 0 ∧ err ≠ -enoent ∨ runConfigOf btf prog.progName = [])) ∨
      ∃ prog', readRunConfig prog btf = .ok prog' ∧
        (runConfigOf btf prog.progName).foldlM parseMember prog = .ok prog' := by
  rw [readRunConfig]
  split_ifs with hlen
  · exact Or.inl ⟨_, rfl, Or.inl (by decide)⟩
  · rw [runConfigOf]
    cases getRunConfig btf prog.progName with
    | error err => exact Or.inl ⟨err, rfl, Or.inr rfl⟩
    | ok members =>
      cases hfold : members.foldlM parseMember prog with
      | error err => exact Or.inl ⟨err, hfold, Or.inl (foldlM_parseMember_eq_error hfold)⟩
      | ok prog' => exact Or.inr ⟨prog', hfold, hfold⟩

/-- A program whose type information has been read has gone through its run
configuration. -/
theorem trace_of_parsed (h : parsed (parseBtf prog btf) = .ok prog') :
    prog'.progName = expandName prog.progName (btf <|> prog.btf) ∧
      Trace (fun m s t ↦ parseMember s m = .ok t) (runConfigOf (btf <|> prog.btf) prog'.progName)
        { prog with progName := prog'.progName } prog' := by
  obtain ⟨name, hexpand⟩ : ∃ name, expandName prog.progName (btf <|> prog.btf) = name := ⟨_, rfl⟩
  have hrun : Trace (fun m s t ↦ parseMember s m = .ok t) (runConfigOf (btf <|> prog.btf) name)
      { prog with progName := name } prog' := by
    obtain ⟨err, hread, herr⟩ | ⟨q, hread, hfold⟩ :=
      readRunConfig_cases { prog with progName := name } (btf <|> prog.btf)
    · have hparse : parseBtf prog btf = ({ prog with progName := name }, err) := by
        simp only [parseBtf, hexpand, hread]
      rw [hparse, parsed] at h
      split_ifs at h with hdropped
      cases h
      rw [herr.resolve_left hdropped]
      exact .nil _
    · have hparse : parseBtf prog btf = (q, 0) := by simp only [parseBtf, hexpand, hread]
      rw [hparse] at h
      cases h
      exact .of_foldlM hfold
  have hname : prog'.progName = name := congrArg (·.2.2.2.1) (identity_of_trace hrun)
  rw [hexpand, hname]
  exact ⟨rfl, hrun⟩

section Run

variable (h : Trace (fun m s t ↦ parseMember s m = .ok t) members prog prog')

include h

theorem runPrio_of_trace :
    prog'.runPrio = (lastValue (text "priority") members).getD prog.runPrio :=
  h.last_write XdpProgram.runPrio (valueOf (text "priority")) fun _ _ _ ↦ runPrio_parseMember

theorem chainCallActions_of_trace (hfd : prog.progFd.isSome) :
    prog'.chainCallActions = prog.chainCallActions := by
  have hkept : prog'.progFd.isSome ∧ prog'.chainCallActions = prog.chainCallActions := by
    refine h.invariant (P := fun _ ↦ True) (I := fun s ↦ s.progFd.isSome ∧
      s.chainCallActions = prog.chainCallActions) (fun m s t _ hstep hs ↦ ?_) (fun _ _ ↦ trivial)
      ⟨hfd, rfl⟩
    exact ⟨progFd_parseMember hstep ▸ hs.1, (chainCallActions_parseMember hstep hs.1).trans hs.2⟩
  exact hkept.2

theorem chainCallEnabled_of_trace (hfd : prog.progFd = none) {a : UInt32} {key : List UInt8}
    (hkey : xdpActionNames[a.toNat]? = some key) : prog'.chainCallEnabled a =
      ((lastValue key members).map fun val ↦ decide (val ≠ 0)).getD (prog.chainCallEnabled a) := by
  have hunloaded := h.with_invariant (I := fun s ↦ s.progFd = none)
    (fun _ _ _ hstep hs ↦ (progFd_parseMember hstep).trans hs) hfd
  rw [hunloaded.last_write (·.chainCallEnabled a) (fun m ↦ (valueOf key m).map (decide <| · ≠ 0))
    (fun _ _ _ hstep ↦ chainCallEnabled_parseMember hstep.1 hstep.2 hkey), lastValue,
    ← List.getLast?_map, List.map_filterMap]

end Run

theorem XdpProgram.chainCallEnabled_of_default
    (h : prog.chainCallActions = xdpDefaultChainCallActions) (action : UInt32) :
    prog.chainCallEnabled action = decide (action = xdpPass) := by
  have hbit : xdpDefaultChainCallActions = (0 : UInt32) ||| 1 <<< xdpPass := by decide
  have hzero : has 0 action = false := by simp [has]
  rw [chainCallEnabled_eq, h, hbit, has_or_bit, hzero, Bool.false_or, ← Bool.decide_and,
    decide_eq_decide, UInt32.lt_iff_toNat_lt, ← UInt32.toNat_inj]
  change action.toNat < 31 ∧ action.toNat % 32 = 2 ↔ action.toNat = 2
  omega

/-- A program taken from the kernel has the priority of its run configuration and the
default actions, whatever actions the run configuration has. -/
theorem from_fd_default_actions (info : BpfProgInfo) (bpfProg : BpfProgram)
    {created taken : XdpProgram} (hobj : createFromObj bpfProg info.btf = .ok created)
    (hfd : fromFd info = .ok taken) (hname : created.progName = taken.progName) :
    created.runPrio = (lastValue (text "priority") (runConfigOf info.btf created.progName)).getD
        xdpDefaultRunPrio ∧
      taken.runPrio = created.runPrio ∧
      (∀ action, taken.chainCallEnabled action = decide (action = xdpPass)) ∧
      ∀ action key, xdpActionNames[action.toNat]? = some key → created.chainCallEnabled action =
        ((lastValue key (runConfigOf info.btf created.progName)).map fun val ↦
          decide (val ≠ 0)).getD (decide (action = xdpPass)) := by
  obtain ⟨prog, hprog, hcreated⟩ := Collect.bind_eq_ok_iff.mp hobj
  cases hcreated
  have hfile := (trace_of_parsed hprog).2
  have hkernel := (trace_of_parsed hfd).2
  have hbtf : (info.btf <|> (XdpProgram.new bpfProg.name).btf) = info.btf := by
    cases info.btf <;> rfl
  rw [hbtf] at hfile
  refine ⟨runPrio_of_trace hfile, ?_, ?_, ?_⟩
  · rw [runPrio_of_trace hkernel, ← hname]
    exact (runPrio_of_trace hfile).symm
  · exact XdpProgram.chainCallEnabled_of_default (chainCallActions_of_trace hkernel rfl)
  · intro action key hkey
    have hnew := (XdpProgram.new prog.progName).chainCallEnabled_of_default rfl action
    exact hnew ▸ chainCallEnabled_of_trace hfile rfl hkey

theorem identity_fromFd {info : BpfProgInfo} (h : fromFd info = .ok prog) :
    prog.identity = (none, info.btf, some info, expandName info.name info.btf, false) := by
  obtain ⟨hname, hrun⟩ := trace_of_parsed h
  rw [identity_of_trace hrun, hname]
  rfl

def chainedBtf : Btf where
  functions := []
  runConfig := some [(⟨[95, 121], by decide⟩,
    .ok [⟨some ⟨text "priority", by decide +kernel⟩, some 10⟩,
      ⟨some ⟨text "XDP_DROP", by decide +kernel⟩, some 1⟩])]

def chainedProgram : BpfProgram := ⟨⟨[121], by decide⟩, 2, 0⟩

def chainedInfo : BpfProgInfo :=
  ⟨11, chainedProgram.name, .replicate 8 0, 0, some chainedBtf, by decide⟩

theorem from_fd_default_actions_chained : ∃ created taken,
    createFromObj chainedProgram chainedInfo.btf = .ok created ∧ fromFd chainedInfo = .ok taken ∧
      created.chainCallEnabled 1 = true ∧ taken.chainCallEnabled 1 = false ∧
      taken.runPrio = 10 := by
  have hfile : (createFromObj chainedProgram chainedInfo.btf).toOption.map (fun prog ↦
      (prog.progName.bytes, prog.chainCallEnabled 1, prog.runPrio)) = some ([121], true, 10) := by
    decide +kernel
  have hkernel : (fromFd chainedInfo).toOption.map (·.progName.bytes) = some [121] := by
    decide +kernel
  cases hcreated : createFromObj chainedProgram chainedInfo.btf with
  | error err =>
    rw [hcreated] at hfile
    cases hfile
  | ok created =>
    cases htaken : fromFd chainedInfo with
    | error err =>
      rw [htaken] at hkernel
      cases hkernel
    | ok taken =>
      rw [hcreated] at hfile
      rw [htaken] at hkernel
      obtain ⟨hname, hfile⟩ := Prod.mk.inj (Option.some_inj.mp hfile)
      obtain ⟨hdrop, hprio⟩ := Prod.mk.inj hfile
      have hsame : created.progName = taken.progName :=
        cstring_eq (hname.trans (Option.some_inj.mp hkernel).symm)
      obtain ⟨-, hrunPrio, hdefault, -⟩ :=
        from_fd_default_actions chainedInfo chainedProgram hcreated htaken hsame
      exact ⟨created, taken, rfl, rfl, hdrop, hdefault 1, hrunPrio.trans hprio⟩

end Configured

section Names

variable {func : CString} {names : List CString}

def kernelName (name : CString) : CString :=
  ⟨name.bytes.take (bpfObjNameLen - 1), fun h ↦ name.noNul (List.mem_of_mem_take h)⟩

def startingWith (func : CString) (names : List CString) : List CString :=
  names.filter fun name ↦ func.bytes <+: name.bytes

theorem mem_startingWith {name : CString} :
    name ∈ startingWith func names ↔ name ∈ names ∧ func.bytes <+: name.bytes := by
  simp [startingWith]

theorem startingWith_cons_pos {name : CString} (h : func.bytes <+: name.bytes) :
    startingWith func (name :: names) = name :: startingWith func names :=
  List.filter_cons_of_pos (by simpa using h)

theorem startingWith_cons_neg {name : CString} (h : ¬ func.bytes <+: name.bytes) :
    startingWith func (name :: names) = startingWith func names :=
  List.filter_cons_of_neg (by simpa using h)

theorem btfGetFunctionLoop_of_mem (h : func ∈ names) (n : ℕ) (last : Option CString) :
    btfGetFunctionLoop func names n last = some func := by
  induction names generalizing n last with
  | nil => cases h
  | cons name names ih =>
    rw [btfGetFunctionLoop]
    by_cases hname : func = name
    · subst hname
      rw [if_pos (List.prefix_refl _), if_pos rfl]
    · have htail : func ∈ names := (List.mem_cons.mp h).resolve_left hname
      split
      · rename_i hpre
        rw [if_neg (fun hlen ↦ hname (cstring_eq (hpre.eq_of_length hlen.symm)))]
        exact ih htail _ _
      · exact ih htail _ _

theorem btfGetFunctionLoop_of_notMem (h : func ∉ names) (n : ℕ) (last : Option CString) :
    btfGetFunctionLoop func names n last =
      if n + (startingWith func names).length = 1 then
        (startingWith func names).getLast?.or last else none := by
  induction names generalizing n last with
  | nil => simp [btfGetFunctionLoop, startingWith]
  | cons name names ih =>
    obtain ⟨hname, htail⟩ := not_or.mp (mt List.mem_cons.mpr h)
    rw [btfGetFunctionLoop]
    split
    · rename_i hpre
      rw [if_neg (fun hlen ↦ hname (cstring_eq (hpre.eq_of_length hlen.symm))), ih htail,
        startingWith_cons_pos hpre, List.length_cons, List.getLast?_cons, Nat.add_assoc,
        Nat.add_comm 1]
      cases (startingWith func names).getLast? <;> rfl
    · rename_i hpre
      rw [ih htail, startingWith_cons_neg hpre]

theorem kernelName_isPrefix_name (name : CString) : (kernelName name).bytes <+: name.bytes :=
  List.take_prefix _ _

theorem kernelName_eq_self {name : CString} (h : strlen name ≤ bpfObjNameLen - 1) :
    kernelName name = name := cstring_eq (List.take_of_length_le h)

theorem strlen_kernelName {name : CString} (h : bpfObjNameLen - 1 < strlen name) :
    strlen (kernelName name) = bpfObjNameLen - 1 := by
  rw [strlen, kernelName, List.length_take]
  exact min_eq_left h.le

/-- A name that the kernel has cut off is found again exactly where no other function of
the program starts with what is left of it. -/
theorem expand_name_kernel_name_iff (btf : Btf) (name : CString) (h : name ∈ btf.functions) :
    expandName (kernelName name) (some btf) = name ↔
      strlen name ≤ bpfObjNameLen - 1 ∨ startingWith (kernelName name) btf.functions = [name] := by
  by_cases hlen : strlen name ≤ bpfObjNameLen - 1
  · refine iff_of_true ?_ (Or.inl hlen)
    rw [kernelName_eq_self hlen, expandName, btfGetFunction, btfGetFunctionLoop_of_mem h]
    exact ite_self name
  · have hcut := strlen_kernelName (not_le.mp hlen)
    have hne : kernelName name ≠ name := fun heq ↦ hlen (heq ▸ hcut.le)
    have hmem : name ∈ startingWith (kernelName name) btf.functions :=
      mem_startingWith.mpr ⟨h, kernelName_isPrefix_name name⟩
    rw [expandName, if_pos hcut.ge, btfGetFunction, or_iff_right hlen]
    by_cases hexact : kernelName name ∈ btf.functions
    · rw [btfGetFunctionLoop_of_mem hexact]
      refine iff_of_false hne fun hall ↦ hne ?_
      have hself := mem_startingWith.mpr ⟨hexact, List.prefix_refl (kernelName name).bytes⟩
      rw [hall] at hself
      exact List.mem_singleton.mp hself
    · rw [btfGetFunctionLoop_of_notMem hexact, Nat.zero_add]
      constructor
      · intro hname
        split at hname
        · rename_i hone
          obtain ⟨a, ha⟩ := List.length_eq_one_iff.mp hone
          rw [ha] at hmem ⊢
          rw [List.mem_singleton.mp hmem]
        · exact absurd hname hne
      · intro hall
        rw [hall]
        rfl

def longName : CString := ⟨List.replicate 20 120, by decide⟩

def longerName : CString := ⟨List.replicate 21 120, by decide⟩

theorem expand_name_kernel_name_long :
    expandName (kernelName longName) (some ⟨[longName], none⟩) = longName ∧
      expandName (kernelName longName) (some ⟨[longName, longerName], none⟩) ≠ longName := by
  constructor
  · refine (expand_name_kernel_name_iff _ longName List.mem_cons_self).mpr (Or.inr ?_)
    exact startingWith_cons_pos (kernelName_isPrefix_name longName)
  · rw [Ne, expand_name_kernel_name_iff _ longName List.mem_cons_self, not_or]
    exact ⟨by decide, fun hall ↦ absurd (congrArg List.length hall) (by decide)⟩

end Names

end KernelBypass.Libxdp
