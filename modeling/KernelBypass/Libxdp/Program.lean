import KernelBypass.Common.MapFiles
import KernelBypass.Foundation.Bitmap

namespace KernelBypass.Libxdp

open Common.CommonParams Common.MapFiles Foundation Bitmap

abbrev xdpPass : UInt32 := 2
abbrev xdpDispatcherRetval : UInt32 := 31
abbrev xdpDefaultRunPrio : UInt32 := 50
abbrev xdpDefaultChainCallActions : UInt32 := (1 : UInt32) <<< xdpPass
abbrev bpfFXdpHasFrags : UInt32 := (1 : UInt32) <<< 5
abbrev bpfObjNameLen : ℕ := 16
abbrev bpfTagSize : ℕ := 8

abbrev eperm : ℤ := 1
abbrev e2big : ℤ := 7
abbrev ebusy : ℤ := 16
abbrev eexist : ℤ := 17
abbrev eopnotsupp : ℤ := 95
abbrev enotsup : ℤ := eopnotsupp

/-- A member of a run configuration: its name, and the number of elements of the array
that its type points to, where it is of that form. -/
structure Member where
  name : Option CString
  value : Option UInt32

/-- What is read of the type information of a program: the names of the functions, and
the variables of the section `.xdp_run_config`, where there is one, each with its members
or the error of `btf_get_section_var`. -/
structure Btf where
  functions : List CString
  runConfig : Option (List (CString × Except ℤ (List Member)))

structure BpfProgInfo where
  id : UInt32
  name : CString
  tag : List.Vector UInt8 bpfTagSize
  loadTime : UInt64
  btf : Option Btf
  loaded : id ≠ 0

structure BpfProgram where
  name : CString
  insnCnt : ℕ
  flags : UInt32

/-- `struct xdp_program`. The file descriptor `prog_fd` stands with what the kernel says
of the program behind it, and is `none` where it is -1. -/
structure XdpProgram where
  bpfProg : Option BpfProgram
  btf : Option Btf
  progFd : Option BpfProgInfo
  progName : CString
  isFrags : Bool
  runPrio : UInt32
  chainCallActions : UInt32
  retvalFree : has chainCallActions xdpDispatcherRetval = false

theorem cstring_eq {s t : CString} (h : s.bytes = t.bytes) : s = t := by
  cases s
  cases t
  cases h
  rfl

namespace XdpProgram

def progId (prog : XdpProgram) : UInt32 := (prog.progFd.map BpfProgInfo.id).getD 0

def progTag (prog : XdpProgram) : List UInt8 :=
  ((prog.progFd.map fun info ↦ info.tag.toList).getD (List.replicate bpfTagSize 0))

def loadTime (prog : XdpProgram) : UInt64 := (prog.progFd.map BpfProgInfo.loadTime).getD 0

def new (name : CString) : XdpProgram :=
  ⟨none, none, none, name, false, xdpDefaultRunPrio, xdpDefaultChainCallActions, by decide⟩

theorem has_retval_or_bit {actions action : UInt32}
    (h : has actions xdpDispatcherRetval = false) (ha : action < xdpDispatcherRetval) :
    has (actions ||| 1 <<< action) xdpDispatcherRetval = false := by
  have hlt : action.toNat < 31 := ha
  rw [has_or_bit, h, Bool.false_or, decide_eq_false_iff_not]
  change ¬ 31 = action.toNat % 32
  omega

theorem has_retval_and_not_bit {actions action : UInt32}
    (h : has actions xdpDispatcherRetval = false) :
    has (actions &&& ~~~(1 <<< action)) xdpDispatcherRetval = false := by
  rw [has_and_not_bit, h, Bool.false_and]

def setChainCallEnabled (prog : XdpProgram) (action : UInt32) (enabled : Bool) :
    Except ℤ XdpProgram :=
  if h : prog.progFd.isSome ∨ ¬ action < xdpDispatcherRetval then .error (-einval)
  else if enabled then
    .ok { prog with
      chainCallActions := prog.chainCallActions ||| 1 <<< action
      retvalFree := has_retval_or_bit prog.retvalFree (Decidable.not_not.mp (not_or.mp h).2) }
  else
    .ok { prog with
      chainCallActions := prog.chainCallActions &&& ~~~(1 <<< action)
      retvalFree := has_retval_and_not_bit prog.retvalFree }

def chainCallEnabled (prog : XdpProgram) (action : UInt32) : Bool :=
  action < xdpDispatcherRetval ∧ prog.chainCallActions &&& 1 <<< action ≠ 0

def setRunPrio (prog : XdpProgram) (runPrio : UInt32) : Except ℤ XdpProgram :=
  if prog.progFd.isSome then .error (-einval) else .ok { prog with runPrio }

def xdpFragsSupport (prog : XdpProgram) : Bool :=
  match prog.bpfProg, prog.progFd with
  | some bpfProg, none => bpfProg.flags &&& bpfFXdpHasFrags ≠ 0
  | _, _ => prog.isFrags

end XdpProgram

section RunConfig

/-- The loop of `btf_get_function`, with the number of functions whose names have started
with `funcName` so far and the last of them. -/
def btfGetFunctionLoop (funcName : CString) : List CString → ℕ → Option CString → Option CString
  | [], n, last => if n = 1 then last else none
  | name :: names, n, last =>
    if funcName.bytes <+: name.bytes then
      if strlen name = strlen funcName then some name
      else btfGetFunctionLoop funcName names (n + 1) (some name)
    else btfGetFunctionLoop funcName names n last

def btfGetFunction (btf : Option Btf) (funcName : CString) : Option CString :=
  match btf with
  | none => none
  | some btf => btfGetFunctionLoop funcName btf.functions 0 none

/-- The first step of `xdp_program__parse_btf`: a name of the greatest length that the
kernel keeps may have been cut off. -/
def expandName (name : CString) (btf : Option Btf) : CString :=
  if bpfObjNameLen - 1 ≤ strlen name then (btfGetFunction btf name).getD name else name

def xdpActionNames : List (List UInt8) :=
  [text "XDP_ABORTED", text "XDP_DROP", text "XDP_PASS", text "XDP_TX", text "XDP_REDIRECT"]

def getXdpAction (name : CString) : Option UInt32 :=
  (xdpActionNames.findIdx? (· = name.bytes)).map UInt32.ofNat

def getRunConfig (btf : Option Btf) (name : CString) : Except ℤ (List Member) :=
  match btf.bind Btf.runConfig with
  | none => .error (-enoent)
  | some vars =>
    match vars.find? (fun var ↦ var.1.bytes = text "_" ++ name.bytes) with
    | none => .error (-enoent)
    | some var => var.2

def parseMember (prog : XdpProgram) (m : Member) : Except ℤ XdpProgram :=
  match m.name with
  | none => .error (-einval)
  | some name =>
    if name.bytes = text "priority" then
      match m.value with
      | none => .error (-einval)
      | some val => .ok { prog with runPrio := val }
    else
      match getXdpAction name with
      | none => .error (-enotsup)
      | some act =>
        match m.value with
        | none => .error (-einval)
        | some val =>
          -- the value that this call returns is not looked at
          match prog.setChainCallEnabled act (val ≠ 0) with
          | .ok prog => .ok prog
          | .error _ => .ok prog

def readRunConfig (prog : XdpProgram) (btf : Option Btf) : Except ℤ XdpProgram := do
  if 100 ≤ strlen prog.progName + 1 then throw (-enametoolong)
  let members ← getRunConfig btf prog.progName
  members.foldlM parseMember prog

/-- The program with what has been read, and the value returned. A member that is not
right is never answered with `-ENOENT`, so that both callers then give the program up. -/
def parseBtf (prog : XdpProgram) (btf : Option Btf) : XdpProgram × ℤ :=
  let btf := btf <|> prog.btf
  let prog := { prog with progName := expandName prog.progName btf }
  match readRunConfig prog btf with
  | .error err => (prog, err)
  | .ok prog => (prog, 0)

def parsed (result : XdpProgram × ℤ) : Except ℤ XdpProgram :=
  if result.2 ≠ 0 ∧ result.2 ≠ -enoent then .error result.2 else .ok result.1

def createFromObj (bpfProg : BpfProgram) (btf : Option Btf) : Except ℤ XdpProgram := do
  let prog ← parsed (parseBtf (.new bpfProg.name) btf)
  return { prog with bpfProg := some bpfProg, btf := btf }

/-- `xdp_program__from_fd`, which is also how the functions that are given an id, a
pinned file or a loaded program to clone make theirs. -/
def fromFd (info : BpfProgInfo) : Except ℤ XdpProgram :=
  parsed (parseBtf { XdpProgram.new info.name with progFd := some info, btf := info.btf } none)

end RunConfig

def xdpProgramLoad (prog : XdpProgram) (load : Except ℤ BpfProgInfo) : Except ℤ XdpProgram :=
  match prog.progFd, prog.bpfProg with
  | some _, _ => .error (-eexist)
  | none, none => .error (-einval)
  | none, some _ => load.map fun info ↦
      { prog with
        progFd := some info
        btf := prog.btf <|> info.btf
        isFrags := prog.xdpFragsSupport }

end KernelBypass.Libxdp
