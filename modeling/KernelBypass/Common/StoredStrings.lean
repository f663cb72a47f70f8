import KernelBypass.Common.CommonParams

namespace KernelBypass.Common.StoredStrings

open Foundation CommonParams

/-- The array holds a whole string: the argument, or nothing where none was given. -/
structure Stored {n : ℕ} (a : CharArray n) (arg : Option CString) : Prop where
  ended : 0 ∈ a.toList
  string : stringAt a = (arg.map CString.bytes).getD []

theorem toList_strncpy (n : ℕ) (src : CString) : (strncpy n src).toList =
    src.bytes.take n ++ List.replicate (n - src.bytes.length) 0 := rfl

/-- `strncpy` leaves no byte for the end of a string that fills the array. -/
theorem stored_strncpy_iff {n : ℕ} {src : CString} :
    Stored (strncpy n src) (some src) ↔ strlen src < n := by
  constructor
  · intro h
    by_contra hlen
    have hended := h.ended
    have hfull : n - src.bytes.length = 0 := Nat.sub_eq_zero_of_le (Nat.not_lt.mp hlen)
    rw [toList_strncpy, hfull, List.replicate_zero, List.append_nil] at hended
    exact src.noNul (List.mem_of_mem_take hended)
  · intro hlen
    obtain ⟨k, rfl⟩ := Nat.exists_eq_add_of_lt hlen
    have hlist : (strncpy (strlen src + k + 1) src).toList =
        src.bytes ++ 0 :: List.replicate k 0 := by
      rw [toList_strncpy, List.take_of_length_le (by simp [strlen]; omega), ← List.replicate_succ]
      congr 2
      simp [strlen]
      omega
    refine ⟨by simp [hlist], ?_⟩
    have hne : ∀ b ∈ src.bytes, decide (b ≠ 0) = true := by
      intro b hb
      rw [decide_eq_true_eq]
      exact fun hzero ↦ src.noNul (hzero ▸ hb)
    rw [stringAt, hlist, List.takeWhile_append_of_pos hne]
    simp

theorem stored_replicate {n : ℕ} (h : 0 < n) : Stored (List.Vector.replicate n 0) none := by
  obtain ⟨k, rfl⟩ := Nat.exists_eq_add_of_lt h
  exact ⟨by simp, by simp [stringAt]⟩

inductive StringField
  | ifnameBuf
  | redirectIfnameBuf
  | filename
  | progname
  | srcMac
  | destMac
  deriving DecidableEq

namespace StringField

def size : StringField → ℕ
  | ifnameBuf | redirectIfnameBuf => ifNamesize
  | filename => 512
  | progname => 32
  | srcMac | destMac => 18

def buf (cfg : Config) : (f : StringField) → CharArray f.size
  | ifnameBuf => cfg.ifnameBuf
  | redirectIfnameBuf => cfg.redirectIfnameBuf
  | filename => cfg.filename
  | progname => cfg.progname
  | srcMac => cfg.srcMac
  | destMac => cfg.destMac

def checked : StringField → Bool
  | ifnameBuf | redirectIfnameBuf => true
  | _ => false

def arg? : StringField → Opt → Option CString
  | ifnameBuf, .dev optarg => some optarg
  | redirectIfnameBuf, .redirectDev optarg => some optarg
  | filename, .filename optarg => some optarg
  | progname, .progname optarg => some optarg
  | srcMac, .srcMac optarg => some optarg
  | destMac, .destMac optarg => some optarg
  | _, _ => none

def lastArg (f : StringField) (opts : List Opt) : Option CString :=
  (opts.filterMap f.arg?).getLast?

end StringField

variable {env : Environment}

theorem device_ok {option : String} {optarg : CString} {buf : CharArray ifNamesize} {ifindex : Int32}
    (h : device env option optarg = .ok (buf, ifindex)) :
    strlen optarg < ifNamesize ∧ buf = strncpy ifNamesize optarg := by
  unfold device at h
  split_ifs at h with hlen
  · dsimp only at h
    split_ifs at h
    cases h
    exact ⟨Nat.not_le.mp hlen, rfl⟩

/-- What an accepted option does to a field: it stores its argument or leaves it, and an
argument that is checked fits. -/
theorem parseOpt_strings {opt : Opt} {s t : State} (h : parseOpt env s opt = .ok t)
    (f : StringField) :
    f.buf t.cfg = ((f.arg? opt).map (strncpy f.size)).getD (f.buf s.cfg) ∧
      (f.checked = true → ∀ arg ∈ f.arg? opt, strlen arg < f.size) := by
  cases opt with
  | dev optarg | redirectDev optarg =>
    rw [parseOpt] at h
    split at h
    · cases h
    · rename_i buf ifindex hdevice
      obtain ⟨hlen, rfl⟩ := device_ok hdevice
      cases h
      cases f <;> simp [StringField.buf, StringField.arg?, StringField.size, hlen]
  | help | other _ => cases h
  | _ =>
    cases h
    cases f <;> simp [StringField.buf, StringField.arg?, StringField.checked, StringField.size]

section Parsed

variable {opts : List Opt} {t : State} (h : parseCmdlineArgs env opts zeroed = .ok t)
  (f : StringField)

include h

theorem parsed_buf : f.buf t.cfg =
    ((f.lastArg opts).map (strncpy f.size)).getD (List.Vector.replicate f.size 0) := by
  have hzero : f.buf zeroed.cfg = List.Vector.replicate f.size 0 := by cases f <;> rfl
  have hlast := (trace_of_parsed h).last_write (f.buf ·.cfg)
    (fun opt ↦ (f.arg? opt).map (strncpy f.size)) fun _ _ _ hstep ↦ (parseOpt_strings hstep f).1
  rwa [hzero, ← List.map_filterMap, List.getLast?_map] at hlast

theorem parsed_stored_iff :
    Stored (f.buf t.cfg) (f.lastArg opts) ↔ ∀ arg ∈ f.lastArg opts, strlen arg < f.size := by
  rw [parsed_buf h f]
  cases f.lastArg opts with
  | none =>
    have hsize : 0 < f.size := by cases f <;> decide
    simpa using stored_replicate hsize
  | some arg => simpa using stored_strncpy_iff

theorem parsed_checked (hf : f.checked = true) : ∀ arg ∈ f.lastArg opts, strlen arg < f.size := by
  intro arg harg
  obtain ⟨opt, hmem, hopt⟩ := List.mem_filterMap.mp (List.mem_of_getLast? harg)
  obtain ⟨s, s', hstep⟩ := (trace_of_parsed h).exists_step hmem
  exact (parseOpt_strings hstep f).2 hf arg hopt

end Parsed

/-- The names of the devices always fit. The others are stored whole where the last
argument given is shorter than its array. -/
theorem strings_stored_iff (env : Environment) (opts : List Opt) (t : State)
    (h : parseCmdlineArgs env opts zeroed = .ok t) :
    (∀ f : StringField, Stored (f.buf t.cfg) (f.lastArg opts)) ↔
      ∀ f : StringField, f.checked = false → ∀ arg ∈ f.lastArg opts, strlen arg < f.size := by
  simp only [parsed_stored_iff h]
  constructor
  · exact fun hall f _ ↦ hall f
  · intro hunchecked f
    cases hf : f.checked with
    | true => exact parsed_checked h f hf
    | false => exact hunchecked f hf

theorem strings_stored_seventeen :
    ∃ t, parseCmdlineArgs noDevices [.srcMac (letters 20), .srcMac (letters 17)] zeroed =
        .ok t ∧ ∀ f : StringField, Stored (f.buf t.cfg)
          (f.lastArg [.srcMac (letters 20), .srcMac (letters 17)]) := by
  refine ⟨_, rfl, (strings_stored_iff noDevices _ _ rfl).mpr ?_⟩
  intro f _ arg harg
  cases f <;> cases harg
  decide

/-- A MAC address of eighteen characters leaves no end of the string. -/
theorem eighteen_characters_not_ended :
    ∃ t, parseCmdlineArgs noDevices [.srcMac (letters 18)] zeroed = .ok t ∧
      0 ∉ t.cfg.srcMac.toList :=
  ⟨_, rfl, by decide⟩

end KernelBypass.Common.StoredStrings
