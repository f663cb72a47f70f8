import KernelBypass.Foundation.Interleaving
import KernelBypass.Libxdp.Pinning

namespace KernelBypass.Libxdp

open Common.CommonParams Common.MapFiles Foundation Collect

abbrev maxRetry : ℕ := 10
abbrev eagain : ℤ := 11

/-- A call that changes what is attached to an interface: `xdp_program__attach_multi`, with
whether the environment asks to skip the dispatcher, `xdp_program__detach_multi`, or
`xdp_multiprog__detach` of what `xdp_multiprog__get_from_ifindex` finds. -/
inductive Request
  | attachMulti (progs : List XdpProgram) (mode : XdpAttachMode) (skip : Bool)
  | detachMulti (progs : List XdpProgram) (mode : XdpAttachMode)
  | multiprogDetach

namespace Request

def progs : Request → List XdpProgram
  | attachMulti progs _ _ => progs
  | detachMulti progs _ => progs
  | multiprogDetach => []

def mode : Request → XdpAttachMode
  | attachMulti _ mode _ => mode
  | detachMulti _ mode => mode
  | multiprogDetach => .unspec

def removeProgs : Request → Bool
  | attachMulti _ _ _ => false
  | _ => true

end Request

/-- Where a call stands: before which of its system calls, or before which of the functions
that hold the lock. In `query`, `getFd` and `read` it is in `xdp_multiprog__get_from_ifindex`,
with the counter and the variable `prog_id` of that function. -/
inductive Pc
  | query (retryCounter : ℕ) (progId : UInt32)
  | getFd (retryCounter : ℕ) (progId : UInt32) (mode : XdpAttachMode)
  | read (retryCounter : ℕ) (progId : UInt32) (mode : XdpAttachMode)
  | generate (oldMp : Option XdpMultiprog)
  | attachSingle
  | pin (oldMp : Option XdpMultiprog) (new : UInt32)
  | attach (oldMp : Option XdpMultiprog) (new : Option UInt32) (mode : XdpAttachMode)
  | unpinNew (new : UInt32) (err : ℤ)
  | unpinOld (oldMp : XdpMultiprog) (replaced : Bool)
  | done (err : ℤ)

/-- A call under way. Its programs may have been loaded since it was made. No step looks at
`applied`, which says whether the call has changed the interface. -/
structure Call where
  request : Request
  progs : List XdpProgram
  retryCounter : ℕ
  applied : Bool
  pc : Pc

section DetachMulti

/-- What `xdp_program__detach_multi` does once its checks have passed: it attaches nothing in
place of the program, or a new dispatcher. -/
inductive Plan
  | unload (mode : XdpAttachMode)
  | replace

variable (progs : List XdpProgram) (mp : XdpMultiprog)

def checkLegacy : Except ℤ Unit := do
  failIf (1 < progs.length) (-einval)
  failIf (progs.head?.map XdpProgram.progId = some 0) (-einval)
  failIf (progs.head?.map XdpProgram.progId ≠ some mp.mainId) (-enoent)

def checkAttached (prog : XdpProgram) : Except ℤ Unit := do
  failIf (prog.progId = 0) (-einval)
  failIf (∀ p ∈ mp.progs, p.progId ≠ prog.progId) (-enoent)

def detachPlan (mode : XdpAttachMode) : Except ℤ Plan :=
  if mp.isLegacy then do
    checkLegacy progs mp
    failIf (mode ≠ .unspec ∧ mp.attachMode ≠ mode) (-enoent)
    return .unload mode
  else do
    failIf (mode ≠ .unspec ∧ mp.attachMode ≠ mode) (-enoent)
    let _ ← progs.mapM (checkAttached mp)
    return if progs.length = mp.numLinks then .unload mp.attachMode else .replace

end DetachMulti

namespace Call

def start (request : Request) : Call :=
  ⟨request, request.progs, 0, false,
    match request with
    | .multiprogDetach => .query 0 0
    | _ => if request.progs = [] then .done (-einval) else .query 0 0⟩

variable (c : Call)

def goto (pc : Pc) : Call := { c with pc }

/-- What follows the label `out` of `xdp_program__detach_multi`, and the end of a round of
`xdp_program__attach_multi` that has not been able to attach its dispatcher. -/
def retryOr (err : ℤ) : Call :=
  if err = -eagain then
    if maxRetry < c.retryCounter + 1 then c.goto (.done (-ebusy))
    else { c with retryCounter := c.retryCounter + 1, pc := .query 0 0 }
  else c.goto (.done err)

def lookedUp (mp : Except ℤ XdpMultiprog) : Call :=
  match c.request with
  | .attachMulti _ _ skip =>
    -- an error counts as an interface with nothing attached
    if c.progs.length = 1 ∧ skip then c.goto .attachSingle else c.goto (.generate mp.toOption)
  | .detachMulti progs mode =>
    match mp with
    | .error _ => c.goto (.done (-enoent))
    | .ok mp =>
      match detachPlan progs mp mode with
      | .error err => c.retryOr err
      | .ok (.unload mode) => c.goto (.attach (some mp) none mode)
      | .ok .replace => c.goto (.generate (some mp))
  | .multiprogDetach =>
    match mp with
    | .error err => c.goto (.done err)
    | .ok mp =>
      if mp.mainId = 0 then c.goto (.done (-einval))
      else c.goto (.attach (some mp) none mp.attachMode)

/-- What follows `xdp_get_ifindex_prog_id`, which does not touch `prog_id` where nothing is
attached. -/
def queried (retryCounter : ℕ) (progId : UInt32) (attached : Option (UInt32 × XdpAttachMode)) :
    Call :=
  let progId := (attached.map Prod.fst).getD progId
  let mode := (attached.map Prod.snd).getD .unspec
  if progId = 0 then c.lookedUp (.error (-enoent)) else c.goto (.getFd retryCounter progId mode)

def fromId (retryCounter : ℕ) (progId : UInt32) (mp : Except ℤ XdpMultiprog) : Call :=
  match mp with
  | .ok mp => c.lookedUp (.ok mp)
  | .error err =>
    if err = -enoent then
      if maxRetry < retryCounter + 1 then c.lookedUp (.error (-ebusy))
      else c.goto (.query (retryCounter + 1) progId)
    else c.lookedUp (.error err)

def generateFailed (err : ℤ) : Call :=
  match c.request with
  | .attachMulti _ _ _ =>
    if err = -eopnotsupp ∧ c.progs.length = 1 then c.goto .attachSingle else c.goto (.done err)
  | _ => c.retryOr err

def pinFailed (err : ℤ) : Call :=
  match c.request with
  | .attachMulti _ _ _ => c.goto (.done err)
  | _ => c.retryOr err

def attachFailed (new : Option UInt32) (err : ℤ) : Call :=
  match c.request, new with
  | .multiprogDetach, _ => c.goto (.done err)
  | _, some new => c.goto (.unpinNew new err)
  | _, none => c.retryOr err

def attached (oldMp : Option XdpMultiprog) (new : Option UInt32) : Call :=
  let c := { c with applied := true }
  match oldMp with
  | none => c.goto (.done 0)
  | some mp => if mp.isLegacy then c.goto (.done 0) else c.goto (.unpinOld mp new.isSome)

/-- What follows `xdp_multiprog__unpin` of the old dispatcher. Where a new one is in its
place an error is only reported. -/
def unpinnedOld (replaced : Bool) (err : ℤ) : Call :=
  if replaced then c.goto (.done 0)
  else
    match c.request with
    | .multiprogDetach => c.goto (.done err)
    | _ => c.retryOr err

end Call

inductive Client
  | idle
  | busy (call : Call)
  | dead

/-- What the calls share: the dispatchers that the kernel has ever loaded, the program attached
to the interface with its mode, the ids that have ever been attached, and the directories of
the dispatchers. -/
structure Host where
  dispatchers : UInt32 → Option Dispatcher
  attached : Option (UInt32 × XdpAttachMode)
  seen : UInt32 → Prop
  pins : UInt32 → Option PinDir

namespace Host

variable (h : Host)

def attachedId : Option UInt32 := h.attached.map Prod.fst

def load (id : UInt32) (d : Dispatcher) : Host :=
  { h with dispatchers := Function.update h.dispatchers id (some d) }

def setPins (id : UInt32) (dir : Option PinDir) : Host :=
  { h with pins := Function.update h.pins id dir }

def setAttached (attached : Option (UInt32 × XdpAttachMode)) : Host :=
  { h with attached, seen := fun id ↦ h.seen id ∨ attached.map Prod.fst = some id }

end Host

/-- The kernel and the driver of the interface: the mode that is taken where none is asked
for, and whether a program can be replaced on the condition that it is the expected one. -/
structure Kernel where
  driverMode : XdpAttachMode
  replaces : Bool

namespace Kernel

variable (K : Kernel)

def resolve (mode : XdpAttachMode) : XdpAttachMode := if mode = .unspec then K.driverMode else mode

/-- The answers to `xdp_attach_fd` without the change of the error. A kernel that cannot
replace on a condition answers `-EINVAL`, and the call is made again without one; what any
other kernel answers with `-EINVAL` it answers so again. A program that has been attached by
a link is taken off by `xdp_detach_link`, the loop of which is one step. -/
inductive Attaches (attached : Option (UInt32 × XdpAttachMode)) (new old : Option UInt32)
    (mode : XdpAttachMode) : Except ℤ (Option (UInt32 × XdpAttachMode)) → Prop
  | done (h : K.replaces ∨ old = none → attached = old.map (·, K.resolve mode)) :
      Attaches attached new old mode (.ok (new.map (·, K.resolve mode)))
  | unlinked (hnew : new = none) (hold : attached.map Prod.fst = old) :
      Attaches attached new old mode (.ok none)
  | refused {err : ℤ} (h : err ≠ 0) : Attaches attached new old mode (.error err)

end Kernel

def attachError (old : Option UInt32) (err : ℤ) : ℤ :=
  if err = -eexist ∧ old.isSome then -eagain else err

variable (order : ByteOrder)

/-- The programs of a call after `xdp_multiprog__generate`, which links those of the call only
where it adds them. -/
def Call.linkedBy (c : Call) (env : GenerateEnv) : List XdpProgram :=
  if c.request.removeProgs then c.progs else c.progs.map (loadedBy env)

/-- What one sees of a client: that it makes a call, that it goes on with it, that it goes on
though it has been refused what it asked the system for, or though its files could not be worked
on, that the call returns, and that the process ends. -/
inductive Event
  | called (request : Request)
  | moved
  | refused
  | impaired
  | returned (err : ℤ)
  | died

/-- The ways in which `xdp_multiprog__from_fd` may end for a program that has been opened.
Where its type information cannot be loaded a multiprog without a program is returned. -/
inductive Reads (h : Host) (progId : UInt32) (mode : XdpAttachMode) :
    Event → Except ℤ XdpMultiprog → Prop
  | dispatcher {d : Dispatcher} {mp : XdpMultiprog} (hd : h.dispatchers progId = some d)
      (hmp : fillFromFd order progId d.info (h.pins progId) mode = .ok mp) :
      Reads h progId mode .moved (.ok mp)
  | other (hother : h.dispatchers progId = none) :
      Reads h progId mode .moved (.ok (legacyMultiprog progId xdpDispatcherVersion 0 mode))
  | unloaded : Reads h progId mode .refused
      (.ok ⟨0, xdpDispatcherVersion, false, [], 0, mode, fun _ ↦ rfl⟩)
  | failed {err : ℤ} (herr : err ≠ 0) : Reads h progId mode .refused (.error err)

def Host.Leaves (h : Host) (id : UInt32) (left : Option PinDir) : Prop :=
  ∀ d, h.dispatchers id = some d → ∀ dir ∈ left, Agrees dir d.files

/-- One step of a client. The functions that hold the lock are one step each, which the end
of the process may cut short. The kernel gives a new program an id that no other has had. Where
`xdp_multiprog__generate` fails though everything is granted, its own checks have failed. Calls
in hardware mode are left out, and no program is in the hardware. -/
inductive Step (K : Kernel) : Event → Host × Client → Host × Client → Prop
  | called {h : Host} {r : Request} (hmode : r.mode ≠ .hw) :
      Step K (.called r) (h, .idle) (h, .busy (.start r))
  | queryFailed {h : Host} {c : Call} {n : ℕ} {progId : UInt32} {err : ℤ}
      (hpc : c.pc = .query n progId) (herr : err ≠ 0) :
      Step K .refused (h, .busy c) (h, .busy (c.lookedUp (.error err)))
  | queried {h : Host} {c : Call} {n : ℕ} {progId : UInt32} (hpc : c.pc = .query n progId) :
      Step K .moved (h, .busy c) (h, .busy (c.queried n progId h.attached))
  | getFdFailed {h : Host} {c : Call} {n : ℕ} {progId : UInt32} {mode : XdpAttachMode} {err : ℤ}
      (hpc : c.pc = .getFd n progId mode) (herr : err ≠ 0)
      (hfreed : err = -enoent → h.attachedId ≠ some progId) :
      Step K .refused (h, .busy c) (h, .busy (c.fromId n progId (.error err)))
  | gotFd {h : Host} {c : Call} {n : ℕ} {progId : UInt32} {mode : XdpAttachMode}
      (hpc : c.pc = .getFd n progId mode) :
      Step K .moved (h, .busy c) (h, .busy (c.goto (.read n progId mode)))
  | read {h : Host} {c : Call} {n : ℕ} {progId : UInt32} {mode : XdpAttachMode} {e : Event}
      {mp : Except ℤ XdpMultiprog} (hpc : c.pc = .read n progId mode)
      (hread : Reads order h progId mode e mp) :
      Step K e (h, .busy c) (h, .busy (c.fromId n progId mp))
  | readImpaired {h : Host} {c : Call} {n : ℕ} {progId : UInt32} {mode : XdpAttachMode}
      {version : UInt32} {numLinks : ℕ} (hpc : c.pc = .read n progId mode) :
      Step K .impaired (h, .busy c)
        (h, .busy (c.fromId n progId (.ok (legacyMultiprog progId version numLinks mode))))
  | generateFailed {h : Host} {c : Call} {oldMp : Option XdpMultiprog} {env : GenerateEnv} {err : ℤ}
      {e : Event} (hpc : c.pc = .generate oldMp)
      (hgen : generate env c.progs oldMp c.request.removeProgs = .error (.errno err))
      (herr : err ≠ 0) (he : e = .refused ∨ e = .moved ∧ env.Grants) :
      Step K e (h, .busy c) (h, .busy (c.generateFailed err))
  | generateFault {h : Host} {c : Call} {oldMp : Option XdpMultiprog} {env : GenerateEnv}
      (hpc : c.pc = .generate oldMp)
      (hgen : generate env c.progs oldMp c.request.removeProgs = .error .fault) :
      Step K .died (h, .busy c) (h, .dead)
  | generated {h : Host} {c : Call} {oldMp : Option XdpMultiprog} {env : GenerateEnv}
      {g : Generated} {new : UInt32} (hpc : c.pc = .generate oldMp)
      (hgen : generate env c.progs oldMp c.request.removeProgs = .ok g)
      (hnew : new ≠ 0 ∧ h.dispatchers new = none ∧ ¬ h.seen new) :
      Step K .moved (h, .busy c) (h.load new (g.dispatcher order),
        .busy { c with progs := c.linkedBy env, pc := .pin oldMp new })
  | pinFailed {h : Host} {c : Call} {oldMp : Option XdpMultiprog} {new : UInt32} {err : ℤ}
      (hpc : c.pc = .pin oldMp new) (herr : err ≠ 0) :
      Step K .refused (h, .busy c) (h, .busy (c.pinFailed err))
  | pinImpaired {h : Host} {c : Call} {oldMp : Option XdpMultiprog} {new : UInt32} {err : ℤ}
      {left : Option PinDir} (hpc : c.pc = .pin oldMp new) (herr : err ≠ 0)
      (hleft : h.Leaves new left) :
      Step K .impaired (h, .busy c) (h.setPins new left, .busy (c.pinFailed err))
  | pinned {h : Host} {c : Call} {oldMp : Option XdpMultiprog} {new : UInt32} {d : Dispatcher}
      (hpc : c.pc = .pin oldMp new) (hd : h.dispatchers new = some d) :
      Step K .moved (h, .busy c) (h.setPins new (some d.files),
        .busy (c.goto (.attach oldMp (some new) c.request.mode)))
  | attachInvalid {h : Host} {c : Call} {mp : XdpMultiprog} {new : Option UInt32}
      {mode : XdpAttachMode} (hpc : c.pc = .attach (some mp) new mode) (hmp : mp.mainId = 0) :
      Step K .moved (h, .busy c) (h, .busy (c.attachFailed new (-einval)))
  | attachFailed {h : Host} {c : Call} {oldMp : Option XdpMultiprog} {new : Option UInt32}
      {mode : XdpAttachMode} {err : ℤ} (hpc : c.pc = .attach oldMp new mode)
      (hk : K.Attaches h.attached new (oldMp.map XdpMultiprog.mainId) mode (.error err)) :
      Step K .refused (h, .busy c)
        (h, .busy (c.attachFailed new (attachError (oldMp.map XdpMultiprog.mainId) err)))
  | attached {h : Host} {c : Call} {oldMp : Option XdpMultiprog} {new : Option UInt32}
      {mode : XdpAttachMode} {attached : Option (UInt32 × XdpAttachMode)}
      (hpc : c.pc = .attach oldMp new mode) (hold : ∀ mp ∈ oldMp, mp.mainId ≠ 0)
      (hk : K.Attaches h.attached new (oldMp.map XdpMultiprog.mainId) mode (.ok attached)) :
      Step K .moved (h, .busy c) (h.setAttached attached, .busy (c.attached oldMp new))
  | unpinnedNew {h : Host} {c : Call} {new : UInt32} {err : ℤ} (hpc : c.pc = .unpinNew new err) :
      Step K .moved (h, .busy c) (h.setPins new none, .busy (c.retryOr err))
  | unpinNewImpaired {h : Host} {c : Call} {new : UInt32} {err : ℤ} {left : Option PinDir}
      (hpc : c.pc = .unpinNew new err) (hleft : h.Leaves new left) :
      Step K .impaired (h, .busy c) (h.setPins new left, .busy (c.retryOr err))
  | unpinnedOld {h : Host} {c : Call} {oldMp : XdpMultiprog} {replaced : Bool}
      (hpc : c.pc = .unpinOld oldMp replaced) :
      Step K .moved (h, .busy c) (h.setPins oldMp.mainId none, .busy (c.unpinnedOld replaced 0))
  | unpinOldImpaired {h : Host} {c : Call} {oldMp : XdpMultiprog} {replaced : Bool} {err : ℤ}
      {left : Option PinDir} (hpc : c.pc = .unpinOld oldMp replaced)
      (herr : err ≠ 0 ∧ err ≠ -eagain) (hleft : h.Leaves oldMp.mainId left) :
      Step K .impaired (h, .busy c) (h.setPins oldMp.mainId left, .busy (c.unpinnedOld replaced err))
  | singleFailed {h : Host} {c : Call} {err : ℤ} (hpc : c.pc = .attachSingle) (herr : err ≠ 0) :
      Step K .refused (h, .busy c) (h, .busy (c.goto (.done err)))
  | single {h : Host} {c : Call} {prog : XdpProgram} {id : UInt32}
      {attached : Option (UInt32 × XdpAttachMode)} (hpc : c.pc = .attachSingle)
      (hprog : c.progs = [prog]) (hid : ∀ info ∈ prog.progFd, id = info.id)
      (hother : h.dispatchers id = none)
      (hk : K.Attaches h.attached (some id) none c.request.mode (.ok attached)) :
      Step K .moved (h, .busy c)
        (h.setAttached attached, .busy { c with applied := true, pc := .done 0 })
  | returned {h : Host} {c : Call} {err : ℤ} (hpc : c.pc = .done err) :
      Step K (.returned err) (h, .busy c) (h, .idle)
  | died {h : Host} {c : Call} : Step K .died (h, .busy c) (h, .dead)
  | diedPinning {h : Host} {c : Call} {oldMp : Option XdpMultiprog} {new : UInt32}
      {left : Option PinDir} (hpc : c.pc = .pin oldMp new) (hleft : h.Leaves new left) :
      Step K .died (h, .busy c) (h.setPins new left, .dead)
  | diedUnpinning {h : Host} {c : Call} {id : UInt32} {left : Option PinDir}
      (hpc : (∃ err, c.pc = .unpinNew id err) ∨
        ∃ mp replaced, c.pc = .unpinOld mp replaced ∧ mp.mainId = id)
      (hleft : h.Leaves id left) :
      Step K .died (h, .busy c) (h.setPins id left, .dead)

/-- Another program may change what is attached, but does not attach a dispatcher. -/
inductive Foreign : Option (UInt32 × XdpAttachMode) → Host → Host → Prop
  | attached {h : Host} {attached : Option (UInt32 × XdpAttachMode)}
      (hother : ∀ a ∈ attached, h.dispatchers a.1 = none) :
      Foreign attached h (h.setAttached attached)

end KernelBypass.Libxdp
