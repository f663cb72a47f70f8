import KernelBypass.Foundation.Trace
import Mathlib.Data.Vector.Basic

namespace KernelBypass.Common.CommonParams

open Foundation

inductive XdpAttachMode
  | unspec
  | native
  | skb
  | hw
  deriving DecidableEq

abbrev xdpCopy : UInt16 := (1 : UInt16) <<< 1
abbrev xdpZerocopy : UInt16 := (1 : UInt16) <<< 2

abbrev ifNamesize : ℕ := 16
abbrev exitFailOption : ℕ := 2

abbrev CharArray (n : ℕ) := List.Vector UInt8 n

structure CString where
  bytes : List UInt8
  noNul : 0 ∉ bytes

def strlen (s : CString) : ℕ := s.bytes.length

/-- The string is cut off after `n` bytes, or filled up with zeros. -/
def strncpy (n : ℕ) (src : CString) : CharArray n :=
  ⟨src.bytes.take n ++ List.replicate (n - src.bytes.length) 0, by
    rw [List.length_append, List.length_take, List.length_replicate]
    omega⟩

def stringAt {n : ℕ} (a : CharArray n) : List UInt8 := a.toList.takeWhile (· ≠ 0)

/-- The fields of `struct config` that the options set. Of the two pointers to a name
only that they point to the buffer behind them. -/
structure Config where
  attachMode : XdpAttachMode
  ifindex : Int32
  ifname : Bool
  ifnameBuf : CharArray ifNamesize
  redirectIfindex : Int32
  redirectIfname : Bool
  redirectIfnameBuf : CharArray ifNamesize
  doUnload : Bool
  progId : UInt32
  reuseMaps : Bool
  filename : CharArray 512
  progname : CharArray 32
  srcMac : CharArray 18
  destMac : CharArray 18
  xskBindFlags : UInt16
  xskIfQueue : Int32
  xskPollMode : Bool
  unloadAll : Bool

/-- What `getopt_long` returns, with its argument, by the labels of the switch; `other`
is a value that has none. -/
inductive Opt
  | dev (optarg : CString)
  | redirectDev (optarg : CString)
  | autoMode
  | skbMode
  | nativeMode
  | offloadMode
  | reuseMaps
  | unload (optarg : CString)
  | pollMode
  | quiet
  | queue (optarg : CString)
  | filename (optarg : CString)
  | progname (optarg : CString)
  | srcMac (optarg : CString)
  | destMac (optarg : CString)
  | copy
  | zeroCopy
  | unloadAll
  | help
  | other (opt : Int32)

structure State where
  cfg : Config
  verbose : Bool

/-- The end of the process: its code, what it has written to `stderr`, and whether the
usage printed before was the full one. -/
structure Exit where
  code : ℕ
  stderr : String
  fullHelp : Option Bool

structure Environment where
  malloc : Bool
  ifNametoindex : List UInt8 → UInt32
  errno : List UInt8 → Int32
  strerror : Int32 → String
  atoi : CString → Int32

variable (env : Environment)

def error (stderr : String) : Except Exit State := .error ⟨exitFailOption, stderr, some false⟩

/-- Copying and looking up the name of a device, the same for both options that take
one. -/
def device (option : String) (optarg : CString) : Except String (CharArray ifNamesize × Int32) :=
  if strlen optarg ≥ ifNamesize then .error ("ERR: " ++ option ++ " name too long\n")
  else
    let buf := strncpy ifNamesize optarg
    let name := stringAt buf
    let ifindex := (env.ifNametoindex name).toInt32
    if ifindex = 0 then
      .error ("ERR: " ++ option ++ " name unknown err(" ++ toString (env.errno name) ++ "):" ++
        env.strerror (env.errno name) ++ "\n")
    else .ok (buf, ifindex)

def parseOpt (s : State) : Opt → Except Exit State
  | .dev optarg =>
    match device env "--dev" optarg with
    | .error stderr => error stderr
    | .ok (buf, ifindex) => .ok { s with cfg := { s.cfg with
        ifname := true, ifnameBuf := buf, ifindex := ifindex } }
  | .redirectDev optarg =>
    match device env "--redirect-dev" optarg with
    | .error stderr => error stderr
    | .ok (buf, ifindex) => .ok { s with cfg := { s.cfg with
        redirectIfname := true, redirectIfnameBuf := buf, redirectIfindex := ifindex } }
  | .autoMode => .ok { s with cfg := { s.cfg with attachMode := .unspec } }
  | .skbMode => .ok { s with cfg := { s.cfg with
      attachMode := .skb, xskBindFlags := s.cfg.xskBindFlags &&& ~~~xdpZerocopy ||| xdpCopy } }
  | .nativeMode => .ok { s with cfg := { s.cfg with attachMode := .native } }
  | .offloadMode => .ok { s with cfg := { s.cfg with attachMode := .hw } }
  | .reuseMaps => .ok { s with cfg := { s.cfg with reuseMaps := true } }
  | .unload optarg => .ok { s with cfg := { s.cfg with
      doUnload := true, progId := (env.atoi optarg).toUInt32 } }
  | .pollMode => .ok { s with cfg := { s.cfg with xskPollMode := true } }
  | .quiet => .ok { s with verbose := false }
  | .queue optarg => .ok { s with cfg := { s.cfg with xskIfQueue := env.atoi optarg } }
  | .filename optarg => .ok { s with cfg := { s.cfg with filename := strncpy 512 optarg } }
  | .progname optarg => .ok { s with cfg := { s.cfg with progname := strncpy 32 optarg } }
  | .srcMac optarg => .ok { s with cfg := { s.cfg with srcMac := strncpy 18 optarg } }
  | .destMac optarg => .ok { s with cfg := { s.cfg with destMac := strncpy 18 optarg } }
  | .copy => .ok { s with cfg := { s.cfg with
      xskBindFlags := s.cfg.xskBindFlags &&& ~~~xdpZerocopy ||| xdpCopy } }
  | .zeroCopy => .ok { s with cfg := { s.cfg with
      xskBindFlags := s.cfg.xskBindFlags &&& ~~~xdpCopy ||| xdpZerocopy } }
  | .unloadAll => .ok { s with cfg := { s.cfg with unloadAll := true } }
  | .help => .error ⟨exitFailOption, "", some true⟩
  | .other _ => error ""

def parseCmdlineArgs (opts : List Opt) (s : State) : Except Exit State :=
  if env.malloc then opts.foldlM (parseOpt env) s
  else .error ⟨exitFailOption, "Unable to malloc()\n", none⟩

def Opt.mode? : Opt → Option XdpAttachMode
  | .autoMode => some .unspec
  | .skbMode => some .skb
  | .nativeMode => some .native
  | .offloadMode => some .hw
  | _ => none

def Config.bindMode (cfg : Config) : Bool × Bool :=
  (cfg.xskBindFlags &&& xdpCopy ≠ 0, cfg.xskBindFlags &&& xdpZerocopy ≠ 0)

def Opt.bind? : Opt → Option (Bool × Bool)
  | .skbMode | .copy => some (true, false)
  | .zeroCopy => some (false, true)
  | _ => none

def lastMode (opts : List Opt) : Option XdpAttachMode := (opts.filterMap Opt.mode?).getLast?

def lastBind (opts : List Opt) : Option (Bool × Bool) := (opts.filterMap Opt.bind?).getLast?

@[mk_iff]
structure Consistent (cfg : Config) : Prop where
  not_both : ¬(cfg.xskBindFlags &&& xdpCopy ≠ 0 ∧ cfg.xskBindFlags &&& xdpZerocopy ≠ 0)
  skb : cfg.attachMode = .skb →
    cfg.xskBindFlags &&& xdpCopy ≠ 0 ∧ cfg.xskBindFlags &&& xdpZerocopy = 0

theorem consistent_iff_bindMode (cfg : Config) :
    Consistent cfg ↔ cfg.bindMode ≠ (true, true) ∧
      (cfg.attachMode = .skb → cfg.bindMode = (true, false)) := by
  simp [consistent_iff, Config.bindMode]

section Flags

variable (flags a b : UInt16)

theorem or_and_self : (flags ||| b) &&& b = b := by
  apply UInt16.toBitVec_inj.mp
  ext i hi
  simp
  grind

theorem and_not_or_and : (flags &&& ~~~a ||| b) &&& a = a &&& b := by
  apply UInt16.toBitVec_inj.mp
  ext i hi
  simp
  grind

end Flags

variable {env}

/-- What an accepted option does to the two fields; all other options leave them. -/
theorem parseOpt_modes {opt : Opt} {s t : State} (h : parseOpt env s opt = .ok t) :
    t.cfg.attachMode = opt.mode?.getD s.cfg.attachMode ∧
      t.cfg.bindMode = opt.bind?.getD s.cfg.bindMode := by
  cases opt with
  | dev optarg | redirectDev optarg =>
    rw [parseOpt] at h
    split at h
    · cases h
    · cases h
      exact ⟨rfl, rfl⟩
  | help | other _ => cases h
  | skbMode | copy | zeroCopy =>
    cases h
    refine ⟨rfl, ?_⟩
    simp only [Config.bindMode, or_and_self, and_not_or_and, Opt.bind?, Option.getD_some]
    decide
  | _ =>
    cases h
    exact ⟨rfl, rfl⟩

theorem trace_of_parsed {opts : List Opt} {s t : State}
    (h : parseCmdlineArgs env opts s = .ok t) :
    Trace (fun opt s t ↦ parseOpt env s opt = .ok t) opts s t := by
  rw [parseCmdlineArgs] at h
  split at h
  · exact .of_foldlM h
  · cases h

theorem bind_cases {opts : List Opt} {b : Bool × Bool} (h : lastBind opts = some b) :
    b = (true, false) ∨ b = (false, true) := by
  obtain ⟨opt, _, hopt⟩ := List.mem_filterMap.mp (List.mem_of_getLast? h)
  cases opt <;> cases hopt <;> simp

theorem lastBind_ne_none {opts : List Opt} (h : lastMode opts = some .skb) :
    lastBind opts ≠ none := by
  obtain ⟨opt, hmem, hopt⟩ := List.mem_filterMap.mp (List.mem_of_getLast? h)
  have hbind : opt.bind? = some (true, false) := by
    cases opt <;> cases hopt
    rfl
  have hmem' := List.mem_filterMap.mpr ⟨opt, hmem, hbind⟩
  rw [lastBind, Ne, List.getLast?_eq_none_iff]
  exact List.ne_nil_of_mem hmem'

section Parsed

variable {opts : List Opt} {s t : State}

theorem parsed_attachMode (hmode : s.cfg.attachMode = .unspec)
    (h : parseCmdlineArgs env opts s = .ok t) :
    t.cfg.attachMode = (lastMode opts).getD .unspec := by
  rw [← hmode]
  exact (trace_of_parsed h).last_write (·.cfg.attachMode) Opt.mode?
    fun _ _ _ hstep ↦ (parseOpt_modes hstep).1

theorem parsed_bindMode (hflags : s.cfg.xskBindFlags = 0)
    (h : parseCmdlineArgs env opts s = .ok t) :
    t.cfg.bindMode = (lastBind opts).getD (false, false) := by
  have hs : s.cfg.bindMode = (false, false) := by
    rw [Config.bindMode, hflags]
    decide
  rw [← hs]
  exact (trace_of_parsed h).last_write (·.cfg.bindMode) Opt.bind?
    fun _ _ _ hstep ↦ (parseOpt_modes hstep).2

theorem parsed_skb_iff (hmode : s.cfg.attachMode = .unspec)
    (h : parseCmdlineArgs env opts s = .ok t) :
    t.cfg.attachMode = .skb ↔ lastMode opts = some .skb := by
  rw [parsed_attachMode hmode h]
  cases lastMode opts <;> simp

/-- No order of options sets both flags. -/
theorem parsed_not_both (hflags : s.cfg.xskBindFlags = 0)
    (h : parseCmdlineArgs env opts s = .ok t) : t.cfg.bindMode ≠ (true, true) := by
  rw [parsed_bindMode hflags h]
  cases hlast : lastBind opts with
  | none => simp
  | some b => rcases bind_cases hlast with rfl | rfl <;> simp

end Parsed

/-- The last option that sets the attach mode and the last one that sets the bind flags
decide; they disagree where `-z` has the last word on the flags after `-S` has had it on the
mode. -/
theorem parsed_consistent_iff (env : Environment) (opts : List Opt) (s t : State)
    (hmode : s.cfg.attachMode = .unspec) (hflags : s.cfg.xskBindFlags = 0)
    (h : parseCmdlineArgs env opts s = .ok t) :
    Consistent t.cfg ↔ ¬(lastMode opts = some .skb ∧ lastBind opts = some (false, true)) := by
  rw [consistent_iff_bindMode, and_iff_right (parsed_not_both hflags h), parsed_skb_iff hmode h,
    parsed_bindMode hflags h]
  constructor
  · rintro hcopy ⟨hskb, hzero⟩
    have hbind := hcopy hskb
    rw [hzero] at hbind
    cases hbind
  · intro hnot hskb
    cases hlast : lastBind opts with
    | none => exact absurd hlast (lastBind_ne_none hskb)
    | some b =>
      rcases bind_cases hlast with rfl | rfl
      · rfl
      · exact absurd ⟨hskb, hlast⟩ hnot

def zeroed : State where
  cfg := {
    attachMode := .unspec, ifindex := 0, ifname := false, ifnameBuf := List.Vector.replicate _ 0,
    redirectIfindex := 0, redirectIfname := false, redirectIfnameBuf := List.Vector.replicate _ 0,
    doUnload := false, progId := 0, reuseMaps := false, filename := List.Vector.replicate _ 0,
    progname := List.Vector.replicate _ 0, srcMac := List.Vector.replicate _ 0,
    destMac := List.Vector.replicate _ 0, xskBindFlags := 0, xskIfQueue := 0,
    xskPollMode := false, unloadAll := false }
  verbose := true

def letters (n : ℕ) : CString :=
  ⟨List.replicate n 97, fun h ↦ absurd (List.eq_of_mem_replicate h) (by decide)⟩

theorem length_letters (n : ℕ) : (letters n).bytes.length = n := List.length_replicate

def noDevices : Environment where
  malloc := true
  ifNametoindex _ := 0
  errno _ := 19
  strerror _ := "No such device"
  atoi _ := 0

def State.withModes (s : State) (mode : XdpAttachMode) (flags : UInt16) : State :=
  { s with cfg := { s.cfg with attachMode := mode, xskBindFlags := flags } }

theorem parsed_consistent_zerocopy_skb :
    ∃ t, parseCmdlineArgs noDevices [.zeroCopy, .skbMode] zeroed = .ok t ∧
      t.cfg.attachMode = .skb ∧ Consistent t.cfg :=
  ⟨zeroed.withModes .skb xdpCopy, rfl, rfl,
    (parsed_consistent_iff noDevices [.zeroCopy, .skbMode] zeroed _ rfl rfl rfl).mpr (by decide)⟩

/-- With `-S -z` the socket asks for zero-copy in generic mode. -/
theorem parsed_skb_zerocopy :
    ∃ t, parseCmdlineArgs noDevices [.skbMode, .zeroCopy] zeroed = .ok t ∧
      t.cfg.attachMode = .skb ∧ t.cfg.xskBindFlags = xdpZerocopy ∧ ¬Consistent t.cfg := by
  refine ⟨zeroed.withModes .skb xdpZerocopy, rfl, rfl, rfl, ?_⟩
  intro h
  exact absurd (h.skb rfl).2 (by decide)

end KernelBypass.Common.CommonParams
