import KernelBypass.Common.MapFiles

namespace KernelBypass.Common.Unload

open CommonParams MapFiles

abbrev exitSuccess : ℤ := 0
abbrev exitFailure : ℤ := 1

structure LoadedProgram where
  id : UInt32
  loaded : id ≠ 0

/-- The programs of an interface as libxdp reports them; null pointers are `none`. -/
structure Multiprog where
  isLegacy : Bool
  components : List LoadedProgram
  mainProg : Option LoadedProgram
  hwProg : Option LoadedProgram
  attachMode : XdpAttachMode

inductive Lookup
  | error (errno : ℤ)
  | null
  | found (mp : Multiprog)

structure XdpEnvironment where
  getFromIfindex : Int32 → Lookup
  multiprogDetach : Multiprog → ℤ
  programDetach : Option LoadedProgram → Int32 → XdpAttachMode → ℤ
  strerror : ℤ → String

/-- What a call of `do_unload` has done: the value it returns, the arguments with which it
has called `xdp_program__detach`, whether it has called `xdp_multiprog__detach`, and what it
has written. -/
structure Unloading where
  ret : ℤ
  detached : Option (Option LoadedProgram × XdpAttachMode)
  detachedAll : Bool
  stdout : List UInt8
  stderr : List UInt8

def Multiprog.nextProgs (mp : Multiprog) : List LoadedProgram :=
  if mp.isLegacy then [] else mp.components

def xdpProgramId : Option LoadedProgram → UInt32
  | none => 0
  | some prog => prog.id

/-- The program and the mode with which `do_unload` gets to the label `found`. -/
def findProg (mp : Multiprog) (progId : UInt32) : Option (Option LoadedProgram × XdpAttachMode) :=
  match mp.nextProgs.find? (fun prog ↦ xdpProgramId (some prog) = progId) with
  | some prog => some (some prog, mp.attachMode)
  | none =>
    if mp.isLegacy ∧ xdpProgramId mp.mainProg = progId then some (mp.mainProg, mp.attachMode)
    else if xdpProgramId mp.hwProg = progId then some (mp.hwProg, .hw)
    else none

def ifnameText (cfg : Config) : List UInt8 :=
  if cfg.ifname then stringAt cfg.ifnameBuf else text "(null)"

def exitCode (err : ℤ) : ℤ := if err ≠ 0 then exitFailure else exitSuccess

def detachError (env : XdpEnvironment) (err : ℤ) : List UInt8 :=
  if err ≠ 0 then text ("Unable to detach XDP program: " ++ env.strerror (-err) ++ "\n") else []

def doUnload (env : XdpEnvironment) (cfg : Config) : Unloading :=
  match env.getFromIfindex cfg.ifindex with
  | .error errno => ⟨exitCode exitFailure, none, false, [],
      text ("Unable to get xdp_dispatcher program: " ++ env.strerror errno ++ "\n")⟩
  | .null => ⟨exitCode exitFailure, none, false, [],
      text "No XDP program loaded on " ++ ifnameText cfg ++ text "\n"⟩
  | .found mp =>
    if cfg.unloadAll then
      let err := env.multiprogDetach mp
      ⟨exitCode err, none, true, [], detachError env err⟩
    else
      match findProg mp cfg.progId with
      | none => ⟨exitCode (-enoent), none, false,
          text ("Program with ID " ++ toString cfg.progId ++ " not loaded on ") ++
            ifnameText cfg ++ text "\n", []⟩
      | some (prog, mode) =>
        let err := env.programDetach prog cfg.ifindex mode
        ⟨exitCode err, some (prog, mode), false,
          text ("Detaching XDP program with ID " ++ toString (xdpProgramId prog) ++ " from ") ++
            ifnameText cfg ++ text "\n", detachError env err⟩

inductive Attached : Lookup → LoadedProgram → XdpAttachMode → Prop
  | component {mp : Multiprog} {prog : LoadedProgram} (h : prog ∈ mp.nextProgs) :
      Attached (.found mp) prog mp.attachMode
  | legacy {mp : Multiprog} {prog : LoadedProgram} (hlegacy : mp.isLegacy = true)
      (h : mp.mainProg = some prog) : Attached (.found mp) prog mp.attachMode
  | hw {mp : Multiprog} {prog : LoadedProgram} (h : mp.hwProg = some prog) :
      Attached (.found mp) prog .hw

def notLoaded (env : XdpEnvironment) (cfg : Config) : List UInt8 × List UInt8 :=
  match env.getFromIfindex cfg.ifindex with
  | .error errno =>
    ([], text ("Unable to get xdp_dispatcher program: " ++ env.strerror errno ++ "\n"))
  | .null => ([], text "No XDP program loaded on " ++ ifnameText cfg ++ text "\n")
  | .found _ => (text ("Program with ID " ++ toString cfg.progId ++ " not loaded on ") ++
      ifnameText cfg ++ text "\n", [])

/-- Exactly the requested program is detached, in its mode; where there is none the call
fails. -/
structure Picks (env : XdpEnvironment) (cfg : Config) (u : Unloading) : Prop where
  detaches : u.detached.isSome ↔
    ∃ prog mode, Attached (env.getFromIfindex cfg.ifindex) prog mode ∧ prog.id = cfg.progId
  requested : ∀ prog? mode, u.detached = some (prog?, mode) → ∃ prog, prog? = some prog ∧
    prog.id = cfg.progId ∧ Attached (env.getFromIfindex cfg.ifindex) prog mode
  otherwise : u.detached = none → u.ret = exitFailure ∧ (u.stdout, u.stderr) = notLoaded env cfg
  not_all : u.detachedAll = false

section Search

variable {mp : Multiprog} {progId : UInt32}

/-- What is compared with the id, in the order of the comparisons. -/
def candidates (mp : Multiprog) : List (Option LoadedProgram × XdpAttachMode) :=
  mp.nextProgs.map (fun prog ↦ (some prog, mp.attachMode)) ++
    (if mp.isLegacy then [(mp.mainProg, mp.attachMode)] else []) ++ [(mp.hwProg, .hw)]

theorem findProg_eq_find : findProg mp progId =
    (candidates mp).find? (fun c ↦ xdpProgramId c.1 = progId) := by
  simp only [findProg, candidates, List.find?_append, List.find?_map, Function.comp_def]
  cases mp.nextProgs.find? (fun prog ↦ xdpProgramId (some prog) = progId) with
  | some prog => rfl
  | none =>
    cases mp.isLegacy with
    | true =>
      by_cases hmain : xdpProgramId mp.mainProg = progId <;> simp [hmain, List.find?_singleton]
    | false => simp [List.find?_singleton]

theorem attached_iff {prog : LoadedProgram} {mode : XdpAttachMode} :
    Attached (.found mp) prog mode ↔ (some prog, mode) ∈ candidates mp := by
  simp only [candidates, List.mem_append, List.mem_map, List.mem_singleton, Prod.mk.injEq]
  constructor
  · intro h
    cases h with
    | component h => exact Or.inl (Or.inl ⟨prog, h, rfl, rfl⟩)
    | legacy hlegacy h => exact Or.inl (Or.inr (by simp [hlegacy, h]))
    | hw h => exact Or.inr ⟨h.symm, rfl⟩
  · rintro ((⟨prog', h, hprog, rfl⟩ | hmain) | ⟨h, rfl⟩)
    · obtain rfl := Option.some_inj.mp hprog
      exact .component h
    · split at hmain
      · rename_i hlegacy
        simp only [List.mem_singleton, Prod.mk.injEq] at hmain
        obtain ⟨h, rfl⟩ := hmain
        exact .legacy hlegacy h.symm
      · cases hmain
    · exact .hw h.symm

theorem forall_candidates_isSome_iff : (∀ c ∈ candidates mp, c.1.isSome) ↔
    mp.hwProg.isSome ∧ (mp.isLegacy = true → mp.mainProg.isSome) := by
  cases hlegacy : mp.isLegacy with
  | true =>
    simp only [candidates, hlegacy, Multiprog.nextProgs]
    simp [and_comm]
  | false => simp [candidates, hlegacy, or_imp, forall_and]

theorem of_findProg_none (h : findProg mp progId = none) :
    ∀ c ∈ candidates mp, xdpProgramId c.1 ≠ progId := by
  rw [findProg_eq_find, List.find?_eq_none] at h
  simpa using h

theorem of_findProg_some {c : Option LoadedProgram × XdpAttachMode}
    (h : findProg mp progId = some c) : c ∈ candidates mp ∧ xdpProgramId c.1 = progId := by
  rw [findProg_eq_find] at h
  exact ⟨List.mem_of_find?_eq_some h, by simpa using List.find?_some h⟩

end Search

/-- A call that detaches nothing and says so is right where nothing was requested that is
there. -/
theorem picks_of_nothing {env : XdpEnvironment} {cfg : Config} {u : Unloading}
    (hu : u.detached = none ∧ u.ret = exitFailure ∧ (u.stdout, u.stderr) = notLoaded env cfg ∧
      u.detachedAll = false)
    (hnone : ¬ ∃ prog mode, Attached (env.getFromIfindex cfg.ifindex) prog mode ∧
      prog.id = cfg.progId) : Picks env cfg u := by
  obtain ⟨hdetached, hret, htexts, hall⟩ := hu
  refine ⟨iff_of_false (by simp [hdetached]) hnone, ?_, fun _ ↦ ⟨hret, htexts⟩, hall⟩
  intro prog? mode hsome
  rw [hdetached] at hsome
  cases hsome

theorem picks_of_not_found {env : XdpEnvironment} {cfg : Config}
    (hlookup : ∀ mp, env.getFromIfindex cfg.ifindex ≠ .found mp) :
    Picks env cfg (doUnload env cfg) := by
  apply picks_of_nothing
  · unfold doUnload notLoaded
    cases hl : env.getFromIfindex cfg.ifindex with
    | error errno => exact ⟨rfl, rfl, rfl, rfl⟩
    | null => exact ⟨rfl, rfl, rfl, rfl⟩
    | found mp => exact absurd hl (hlookup mp)
  · rintro ⟨prog, mode, hattached, _⟩
    generalize env.getFromIfindex cfg.ifindex = lookup at hlookup hattached
    cases hattached <;> exact hlookup _ rfl

section Found

variable {env : XdpEnvironment} {cfg : Config} {mp : Multiprog}
  (hlookup : env.getFromIfindex cfg.ifindex = .found mp) (hall : cfg.unloadAll = false)

include hlookup hall

theorem picks_of_findProg_none (hfind : findProg mp cfg.progId = none) :
    Picks env cfg (doUnload env cfg) := by
  apply picks_of_nothing
  · rw [doUnload, notLoaded, hlookup]
    simp only [hall, hfind]
    exact ⟨rfl, rfl, rfl, rfl⟩
  · rw [hlookup]
    rintro ⟨prog, mode, hattached, hid⟩
    exact of_findProg_none hfind _ (attached_iff.mp hattached) hid

theorem doUnload_of_findProg_some {c : Option LoadedProgram × XdpAttachMode}
    (hfind : findProg mp cfg.progId = some c) :
    (doUnload env cfg).detached = some c ∧ (doUnload env cfg).detachedAll = false := by
  rw [doUnload, hlookup]
  simp only [hall, hfind]
  exact ⟨rfl, rfl⟩

theorem picks_of_findProg_some {prog : LoadedProgram} {mode : XdpAttachMode}
    (hfind : findProg mp cfg.progId = some (some prog, mode)) :
    Picks env cfg (doUnload env cfg) := by
  obtain ⟨hmem, hid⟩ := of_findProg_some hfind
  obtain ⟨hdetached, hone⟩ := doUnload_of_findProg_some hlookup hall hfind
  have hattached : Attached (env.getFromIfindex cfg.ifindex) prog mode :=
    hlookup ▸ attached_iff.mpr hmem
  refine ⟨iff_of_true (by simp [hdetached]) ⟨prog, mode, hattached, hid⟩, ?_, ?_, hone⟩
  · intro prog? mode' hsome
    cases hdetached.symm.trans hsome
    exact ⟨prog, rfl, hid, hattached⟩
  · intro hnone
    cases hdetached.symm.trans hnone

theorem not_picks_of_findProg_null {mode : XdpAttachMode}
    (hfind : findProg mp cfg.progId = some (none, mode)) : ¬ Picks env cfg (doUnload env cfg) := by
  intro hpicks
  obtain ⟨hdetached, _⟩ := doUnload_of_findProg_some hlookup hall hfind
  obtain ⟨prog, hprog, _⟩ := hpicks.requested none mode hdetached
  cases hprog

theorem picks_found_iff : Picks env cfg (doUnload env cfg) ↔
    cfg.progId ≠ 0 ∨ ∀ c ∈ candidates mp, c.1.isSome := by
  cases hfind : findProg mp cfg.progId with
  | none =>
    refine iff_of_true (picks_of_findProg_none hlookup hall hfind) ?_
    by_cases hzero : cfg.progId = 0
    · refine Or.inr fun c hc ↦ ?_
      have hid := of_findProg_none hfind c hc
      rw [hzero] at hid
      cases hprog : c.1 with
      | none => exact absurd (hprog ▸ rfl) hid
      | some prog => rfl
    · exact Or.inl hzero
  | some c =>
    obtain ⟨hmem, hid⟩ := of_findProg_some hfind
    obtain ⟨_ | prog, mode⟩ := c
    · refine iff_of_false (not_picks_of_findProg_null hlookup hall hfind) ?_
      rintro (hne | hsome)
      · exact hne hid.symm
      · cases hsome _ hmem
    · exact iff_of_true (picks_of_findProg_some hlookup hall hfind)
        (Or.inl fun hzero ↦ prog.loaded (hid.trans hzero))

end Found

/-- A missing program has the id 0, as an argument of `-U` that is no number. -/
theorem do_unload_picks_iff (env : XdpEnvironment) (cfg : Config) (hall : cfg.unloadAll = false) :
    Picks env cfg (doUnload env cfg) ↔
      cfg.progId ≠ 0 ∨ ∀ mp, env.getFromIfindex cfg.ifindex = .found mp →
        mp.hwProg.isSome ∧ (mp.isLegacy = true → mp.mainProg.isSome) := by
  by_cases hfound : ∃ mp, env.getFromIfindex cfg.ifindex = .found mp
  · obtain ⟨mp, hlookup⟩ := hfound
    rw [picks_found_iff hlookup hall, forall_candidates_isSome_iff, hlookup]
    simp
  · have hlookup : ∀ mp, env.getFromIfindex cfg.ifindex ≠ .found mp := not_exists.mp hfound
    exact iff_of_true (picks_of_not_found hlookup)
      (Or.inr fun mp hmp ↦ absurd hmp (hlookup mp))

def dispatcher : Multiprog where
  isLegacy := false
  components := [⟨7, by decide⟩]
  mainProg := some ⟨6, by decide⟩
  hwProg := none
  attachMode := .native

def dispatcherEnvironment : XdpEnvironment where
  getFromIfindex _ := .found dispatcher
  multiprogDetach _ := 0
  programDetach prog _ _ := if prog.isSome then 0 else -22
  strerror _ := "Invalid argument"

def unloadConfig (progId : UInt32) : Config :=
  { zeroed.cfg with doUnload := true, progId := progId }

theorem do_unload_picks_component :
    (doUnload dispatcherEnvironment (unloadConfig 7)).ret = 0 ∧
      Picks dispatcherEnvironment (unloadConfig 7)
        (doUnload dispatcherEnvironment (unloadConfig 7)) :=
  ⟨by decide, (do_unload_picks_iff dispatcherEnvironment (unloadConfig 7) rfl).mpr
    (Or.inl (by decide))⟩

/-- With `-U x` the null pointer of the offloaded program is taken for the program 0. -/
theorem do_unload_detaches_null :
    ∃ t, parseCmdlineArgs noDevices [.unload ⟨[120], by decide⟩] zeroed = .ok t ∧
      t.cfg.unloadAll = false ∧
      (doUnload dispatcherEnvironment t.cfg).detached = some (none, .hw) ∧
      ¬ ∃ prog mode, Attached (dispatcherEnvironment.getFromIfindex t.cfg.ifindex) prog mode ∧
        prog.id = t.cfg.progId := by
  refine ⟨⟨unloadConfig 0, true⟩, rfl, rfl, rfl, ?_⟩
  rintro ⟨prog, _, _, hid⟩
  exact prog.loaded hid

end KernelBypass.Common.Unload
