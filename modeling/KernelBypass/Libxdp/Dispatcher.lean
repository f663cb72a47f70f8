import KernelBypass.Libxdp.Program
import KernelBypass.Linux.Headers

namespace KernelBypass.Libxdp

open Foundation Bitmap

abbrev maxDispatcherActions : ℕ := 10

structure DispatcherConfig where
  magic : UInt8
  dispatcherVersion : UInt8
  numProgsEnabled : UInt8
  isXdpFrags : UInt8
  chainCallActions : List.Vector UInt32 maxDispatcherActions
  runPrios : List.Vector UInt32 maxDispatcherActions
  programFlags : List.Vector UInt32 maxDispatcherActions

section Dispatcher

variable {m : Type → Type} [Monad m]

/-- The functions `prog0` to `prog9` and `compat_test`, where nothing replaces them. -/
def stub : m UInt32 := pure xdpDispatcherRetval

/-- The code of `xdp_dispatcher` from the slot `i` on, given the actions of the slots that
are left. -/
def dispatchFrom (numProgsEnabled : ℕ) (slot : ℕ → m UInt32) : ℕ → List UInt32 → m UInt32
  | i, [] =>
    if numProgsEnabled < i + 1 then pure xdpPass
    else do
      let _ ← stub
      pure xdpPass
  | i, chainCallActions :: l =>
    if numProgsEnabled < i + 1 then pure xdpPass
    else do
      let ret ← slot i
      if 1 <<< ret &&& chainCallActions = 0 then pure ret
      else dispatchFrom numProgsEnabled slot (i + 1) l

def xdpDispatcher (conf : DispatcherConfig) (slot : ℕ → m UInt32) : m UInt32 :=
  dispatchFrom conf.numProgsEnabled.toNat slot 0 conf.chainCallActions.toList

/-- The function of a slot. A program that is linked to the slot replaces it. -/
def slotOf (links : ℕ → Option (m UInt32)) (i : ℕ) : m UInt32 := (links i).getD stub

/-- What an interface with a dispatcher runs. The program of a dispatcher with one slot is
linked to `xdp_dispatcher` itself. -/
def runDispatcher (conf : DispatcherConfig) (links : ℕ → Option (m UInt32)) : m UInt32 :=
  if conf.numProgsEnabled = 1 then (links 0).getD (xdpDispatcher conf fun _ ↦ stub)
  else xdpDispatcher conf (slotOf links)

end Dispatcher

section Chain

variable {m : Type → Type} [Monad m]

structure Component (m : Type → Type) where
  run : m UInt32
  chained : UInt32 → Bool

/-- The first result that ends the chain is its result; with none it is `XDP_PASS`. -/
def runChain : List (Component m) → m UInt32
  | [] => pure xdpPass
  | c :: l => do
    let ret ← c.run
    if c.chained ret then runChain l else pure ret

def linkedFrom (links : ℕ → Option (m UInt32)) : ℕ → List UInt32 → List (Component m)
  | _, [] => []
  | i, actions :: l => ((links i).map (⟨·, has actions⟩)).toList ++ linkedFrom links (i + 1) l

variable (links : ℕ → Option (m UInt32))

variable [LawfulMonad m]

/-- A slot that nothing is linked to any more is passed over. -/
theorem dispatchFrom_eq_runChain (l rest : List UInt32)
    (hl : ∀ actions ∈ l, has actions xdpDispatcherRetval) (i : ℕ) :
    dispatchFrom (i + l.length) (slotOf links) i (l ++ rest) = runChain (linkedFrom links i l) := by
  induction l generalizing i with
  | nil =>
    have hend : i + ([] : List UInt32).length < i + 1 := Nat.lt_succ_self i
    cases rest <;> exact if_pos hend
  | cons actions l ih =>
    obtain ⟨hhead, htail⟩ := List.forall_mem_cons.mp hl
    have hnum : i + (actions :: l).length = i + 1 + l.length := by
      rw [List.length_cons]
      omega
    rw [List.cons_append, dispatchFrom, hnum, if_neg (by omega), linkedFrom, slotOf]
    simp only [bit_and_eq_zero_iff, ih htail]
    cases links i with
    | none =>
      rw [Option.getD_none, stub, pure_bind, if_neg (not_not.mpr hhead)]
      rfl
    | some prog =>
      change (prog >>= _) = (prog >>= _)
      congr 1
      funext ret
      exact ite_not _ _ _

/-- The dispatcher runs the chain of the programs that are linked to it. -/
theorem xdpDispatcher_eq_runChain (conf : DispatcherConfig) (l rest : List UInt32)
    (hconf : conf.chainCallActions.toList = l ++ rest) (hnum : conf.numProgsEnabled.toNat = l.length)
    (hl : ∀ actions ∈ l, has actions xdpDispatcherRetval) :
    xdpDispatcher conf (slotOf links) = runChain (linkedFrom links 0 l) := by
  rw [xdpDispatcher, hconf, hnum, ← dispatchFrom_eq_runChain links l rest hl, Nat.zero_add]

end Chain

section OneSlot

open Linux

def actionCode : XdpAction → UInt32
  | .aborted => 0
  | .drop => 1
  | .pass => xdpPass
  | .tx => 3
  | .redirect => 4

theorem actionCode_inj {a b : XdpAction} (h : actionCode a = actionCode b) : a = b := by
  cases a <;> cases b <;> first | rfl | cases h

theorem has_retval_or_actionCode (actions : UInt32) (a : XdpAction) :
    has (actions ||| 1 <<< xdpDispatcherRetval) (actionCode a) = has actions (actionCode a) := by
  rw [has_or_bit]
  cases a <;> exact Bool.or_false _

structure OneSlot (conf : DispatcherConfig) (actions : UInt32) : Prop where
  num : conf.numProgsEnabled = 1
  head : conf.chainCallActions.toList.head? = some (actions ||| 1 <<< xdpDispatcherRetval)

variable {conf : DispatcherConfig} {actions : UInt32} (hconf : OneSlot conf actions)

include hconf

theorem OneSlot.xdpDispatcher_eq {p : Linux.XdpProgram XdpAction}
    {links : ℕ → Option (Linux.XdpProgram UInt32)} (hlink : links 0 = some (actionCode <$> p)) :
    xdpDispatcher conf (slotOf links) =
      p >>= fun a ↦ pure (if has actions (actionCode a) then xdpPass else actionCode a) := by
  obtain ⟨rest, hrest⟩ : ∃ rest, conf.chainCallActions.toList =
      [actions ||| 1 <<< xdpDispatcherRetval] ++ rest := List.head?_eq_some_iff.mp hconf.head
  have hnum : conf.numProgsEnabled.toNat = [actions ||| 1 <<< xdpDispatcherRetval].length := by
    rw [hconf.num]
    rfl
  have hretval : ∀ a ∈ [actions ||| 1 <<< xdpDispatcherRetval], has a xdpDispatcherRetval := by
    intro a ha
    rw [List.mem_singleton.mp ha, has_or_bit, decide_eq_true rfl, Bool.or_true]
  rw [xdpDispatcher_eq_runChain links conf _ rest hrest hnum hretval, linkedFrom, hlink]
  change actionCode <$> p >>= _ = _
  rw [bind_map_left]
  congr 1
  funext a
  change (if has (actions ||| 1 <<< xdpDispatcherRetval) (actionCode a) then _ else _) = _
  rw [has_retval_or_actionCode]
  split_ifs <;> rfl

/-- Linking the only program to the dispatcher itself makes no difference for any program
exactly where it has no other chained action than `XDP_PASS`. -/
theorem OneSlot.agrees_iff :
    (∀ (p : Linux.XdpProgram XdpAction) (links : ℕ → Option (Linux.XdpProgram UInt32)),
      links 0 = some (actionCode <$> p) →
        runDispatcher conf links = xdpDispatcher conf (slotOf links)) ↔
      ∀ a, has actions (actionCode a) → a = .pass := by
  constructor
  · intro hagree a ha
    let links : ℕ → Option (Linux.XdpProgram UInt32) := fun _ ↦ some (actionCode <$> pure a)
    have hrun := congrFun (hagree (pure a) links rfl) []
    have hlink : links 0 = some (actionCode <$> pure a) := rfl
    rw [hconf.xdpDispatcher_eq hlink, pure_bind, if_pos ha, runDispatcher,
      if_pos hconf.num] at hrun
    have hret : (actionCode a, ([] : Frame)) = (xdpPass, []) := Except.ok.inj hrun
    exact actionCode_inj (Prod.mk.inj hret).1
  · intro hpass p links hlink
    rw [hconf.xdpDispatcher_eq hlink, runDispatcher, if_pos hconf.num, hlink, Option.getD_some,
      map_eq_pure_bind]
    congr 1
    funext a
    split_ifs with ha
    · rw [hpass a ha]
      rfl
    · rfl

end OneSlot

end KernelBypass.Libxdp
