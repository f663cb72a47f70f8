import KernelBypass.Foundation.ByteOrder
import KernelBypass.Libxdp.Dispatcher
import Mathlib.Data.List.GetD

namespace KernelBypass.Libxdp

open Common.CommonParams Common.MapFiles Foundation

abbrev xdpDispatcherMagic : UInt8 := 236
abbrev xdpDispatcherVersion : UInt32 := 2
abbrev xdpDispatcherVersionV1 : UInt32 := 1
abbrev bpfFRdonlyProg : UInt32 := (1 : UInt32) <<< 7

/-- How a function ends that does not succeed: with an error code, or with an access to
memory that is not there. -/
inductive Failure
  | errno (err : ℤ)
  | fault
  deriving DecidableEq

structure DispatcherConfigV1 where
  numProgsEnabled : UInt8
  chainCallActions : List.Vector UInt32 maxDispatcherActions
  runPrios : List.Vector UInt32 maxDispatcherActions

variable (order : ByteOrder)

section Layout

def wordArray (buf : List UInt8) (first : ℕ) : List.Vector UInt32 maxDispatcherActions :=
  .ofFn fun i ↦ (order.unpack32 (buf.drop 4)).getD (first + i) 0

def DispatcherConfig.bytes (conf : DispatcherConfig) : List UInt8 :=
  [conf.magic, conf.dispatcherVersion, conf.numProgsEnabled, conf.isXdpFrags] ++
    order.pack32 (conf.chainCallActions.toList ++ conf.runPrios.toList ++ conf.programFlags.toList)

def DispatcherConfig.ofBytes (buf : List UInt8) : DispatcherConfig where
  magic := buf.getD 0 0
  dispatcherVersion := buf.getD 1 0
  numProgsEnabled := buf.getD 2 0
  isXdpFrags := buf.getD 3 0
  chainCallActions := wordArray order buf 0
  runPrios := wordArray order buf 10
  programFlags := wordArray order buf 20

/-- The three bytes of padding may hold anything. -/
def DispatcherConfigV1.bytes (conf : DispatcherConfigV1) (padding : List.Vector UInt8 3) :
    List UInt8 :=
  conf.numProgsEnabled :: padding.toList ++
    order.pack32 (conf.chainCallActions.toList ++ conf.runPrios.toList)

abbrev configSize : ℕ := 124

abbrev configV1Size : ℕ := 84

end Layout

structure ConfigMap where
  keySize : UInt32
  maxEntries : UInt32
  mapFlags : UInt32
  value : List UInt8

/-- What `check_dispatcher_version` looks at: the name of the program, its maps, and the
version in its type information. -/
structure DispatcherInfo where
  name : CString
  maps : List ConfigMap
  btfVersion : Except ℤ UInt32

/-- The part of `check_dispatcher_version` that reads the value of the map. In a dispatcher
of version 1 the fields that the older format lacks stay zero, and nothing checks the size
of the map before its fields are read. -/
def readConfig (buf : List UInt8) (btfVersion : Except ℤ UInt32) :
    Except Failure (UInt32 × DispatcherConfig) := do
  let version ←
    if buf.getD 0 0 = xdpDispatcherMagic then .ok (buf.getD 1 0).toUInt32
    else btfVersion.mapError .errno
  if version = xdpDispatcherVersionV1 then
    if buf.length < configV1Size then .error .fault
    else
      .ok (version, ⟨0, 0, buf.getD 0 0, 0, wordArray order buf 0, wordArray order buf 10,
        .replicate maxDispatcherActions 0⟩)
  else if version = xdpDispatcherVersion then
    if buf.length ≠ configSize then .error (.errno (-einval))
    else .ok (version, .ofBytes order buf)
  else .error (.errno (-eopnotsupp))

def dispatcherName : CString := ⟨text "xdp_dispatcher", by decide +kernel⟩

def checkDispatcherVersion (info : DispatcherInfo) : Except Failure (UInt32 × DispatcherConfig) :=
  if info.name.bytes ≠ dispatcherName.bytes then .error (.errno (-enoent))
  else
    match info.maps with
    | [map] =>
      if map.keySize ≠ 4 ∨ map.value.length < 2 ∨ map.maxEntries ≠ 1 ∨
          map.mapFlags &&& bpfFRdonlyProg = 0 then .error (.errno (-einval))
      else readConfig order map.value info.btfVersion
    | _ => .error (.errno (-enoent))

section RoundTrip

variable {info : DispatcherInfo} {buf : List UInt8}

structure IsDispatcher (info : DispatcherInfo) (buf : List UInt8) : Prop where
  name : info.name.bytes = dispatcherName.bytes
  map : ∃ mapFlags, info.maps = [⟨4, 1, mapFlags, buf⟩] ∧ mapFlags &&& bpfFRdonlyProg ≠ 0

theorem wordArray_eq {header : List UInt8} (hheader : header.length = 4) {first : ℕ}
    {pre : List UInt32} (hpre : pre.length = first) (v : List.Vector UInt32 maxDispatcherActions)
    (post : List UInt32) :
    wordArray order (header ++ order.pack32 (pre ++ v.toList ++ post)) first = v := by
  subst hpre
  rw [wordArray, List.drop_left' hheader, ByteOrder.unpack32_pack32]
  refine Eq.trans ?_ (List.Vector.ofFn_get v)
  congr 1
  funext i
  have hi : (i : ℕ) < v.toList.length := v.toList_length.symm ▸ i.2
  rw [List.append_assoc, List.getD_append_right _ _ _ _ (Nat.le_add_right _ _),
    Nat.add_sub_cancel_left, List.getD_append _ _ _ _ hi, List.getD_eq_getElem _ _ hi,
    List.Vector.get_eq_get_toList]
  rfl

theorem DispatcherConfig.length_bytes (conf : DispatcherConfig) :
    (conf.bytes order).length = configSize := by
  rw [bytes, List.length_append, ByteOrder.length_pack32, List.length_append, List.length_append]
  simp only [List.Vector.toList_length]
  rfl

theorem DispatcherConfigV1.length_bytes (conf : DispatcherConfigV1)
    (padding : List.Vector UInt8 3) : (conf.bytes order padding).length = configV1Size := by
  rw [bytes, List.length_append, ByteOrder.length_pack32, List.length_append, List.length_cons]
  simp only [List.Vector.toList_length]
  rfl

theorem DispatcherConfig.ofBytes_bytes (conf : DispatcherConfig) :
    ofBytes order (conf.bytes order) = conf := by
  have hactions : wordArray order (conf.bytes order) 0 = conf.chainCallActions := by
    rw [bytes, List.append_assoc]
    exact wordArray_eq order rfl (rfl : ([] : List UInt32).length = 0) _ _
  have hprios : wordArray order (conf.bytes order) 10 = conf.runPrios :=
    wordArray_eq order rfl (List.Vector.toList_length _) _ _
  have hflags : wordArray order (conf.bytes order) 20 = conf.programFlags := by
    rw [bytes, ← List.append_nil (_ ++ conf.programFlags.toList)]
    refine wordArray_eq order rfl ?_ _ _
    rw [List.length_append, List.Vector.toList_length, List.Vector.toList_length]
    rfl
  rw [ofBytes, hactions, hprios, hflags]
  rfl

theorem DispatcherConfigV1.wordArray_bytes (conf : DispatcherConfigV1)
    (padding : List.Vector UInt8 3) :
    wordArray order (conf.bytes order padding) 0 = conf.chainCallActions ∧
      wordArray order (conf.bytes order padding) 10 = conf.runPrios := by
  have hheader : (conf.numProgsEnabled :: padding.toList).length = 4 := by simp
  constructor
  · exact wordArray_eq order hheader (rfl : ([] : List UInt32).length = 0) _ _
  · rw [bytes, ← List.append_nil (_ ++ conf.runPrios.toList)]
    exact wordArray_eq order hheader (List.Vector.toList_length _) _ _

theorem IsDispatcher.check_eq (h : IsDispatcher info buf) (hlen : 2 ≤ buf.length) :
    checkDispatcherVersion order info = readConfig order buf info.btfVersion := by
  obtain ⟨mapFlags, hmaps, hflags⟩ := h.map
  rw [checkDispatcherVersion, if_neg (not_not.mpr h.name), hmaps]
  dsimp only
  rw [if_neg]
  rintro (hkey | hvalue | hentries | hzero)
  · exact hkey rfl
  · omega
  · exact hentries rfl
  · exact hflags hzero

theorem DispatcherConfig.checkDispatcherVersion_bytes {conf : DispatcherConfig}
    (hmagic : conf.magic = xdpDispatcherMagic)
    (hversion : conf.dispatcherVersion.toUInt32 = xdpDispatcherVersion)
    (h : IsDispatcher info (conf.bytes order)) :
    checkDispatcherVersion order info = .ok (xdpDispatcherVersion, conf) := by
  have hlen : (conf.bytes order).length = 124 := conf.length_bytes order
  have hread : readConfig order (conf.bytes order) info.btfVersion =
      .ok (conf.dispatcherVersion.toUInt32, .ofBytes order (conf.bytes order)) := by
    have hfirst : (conf.bytes order).getD 0 0 = xdpDispatcherMagic := hmagic
    have hsecond : ((conf.bytes order).getD 1 0).toUInt32 = xdpDispatcherVersion := hversion
    rw [readConfig, if_pos hfirst, hsecond, hversion]
    exact if_neg (not_not.mpr hlen)
  rw [h.check_eq order (by omega), hread, conf.ofBytes_bytes order, hversion]

theorem DispatcherConfigV1.checkDispatcherVersion_bytes {conf : DispatcherConfigV1}
    {padding : List.Vector UInt8 3} (hnum : conf.numProgsEnabled.toNat ≤ maxDispatcherActions)
    (hversion : info.btfVersion = .ok xdpDispatcherVersionV1)
    (h : IsDispatcher info (conf.bytes order padding)) :
    checkDispatcherVersion order info = .ok (xdpDispatcherVersionV1,
      ⟨0, 0, conf.numProgsEnabled, 0, conf.chainCallActions, conf.runPrios,
        .replicate maxDispatcherActions 0⟩) := by
  have hlen : (conf.bytes order padding).length = 84 := conf.length_bytes order padding
  obtain ⟨hactions, hprios⟩ := conf.wordArray_bytes order padding
  have hfirst : (conf.bytes order padding).getD 0 0 ≠ xdpDispatcherMagic := by
    intro (heq : conf.numProgsEnabled = xdpDispatcherMagic)
    rw [heq] at hnum
    revert hnum
    decide
  rw [h.check_eq order (by omega), readConfig, if_neg hfirst, hversion]
  rw [← hactions, ← hprios]
  exact if_neg hlen.not_lt

/-- A dispatcher of either version is read back as it was configured. The first byte tells
the two formats apart, since no dispatcher of the older one has 236 programs. -/
theorem check_dispatcher_version_reads_back :
    (∀ (conf : DispatcherConfig) (info : DispatcherInfo), conf.magic = xdpDispatcherMagic →
      conf.dispatcherVersion.toUInt32 = xdpDispatcherVersion →
      IsDispatcher info (conf.bytes order) →
        checkDispatcherVersion order info = .ok (xdpDispatcherVersion, conf)) ∧
    ∀ (conf : DispatcherConfigV1) (padding : List.Vector UInt8 3) (info : DispatcherInfo),
      conf.numProgsEnabled.toNat ≤ maxDispatcherActions →
      info.btfVersion = .ok xdpDispatcherVersionV1 → IsDispatcher info (conf.bytes order padding) →
        checkDispatcherVersion order info = .ok (xdpDispatcherVersionV1,
          ⟨0, 0, conf.numProgsEnabled, 0, conf.chainCallActions, conf.runPrios,
            .replicate maxDispatcherActions 0⟩) :=
  ⟨fun _ _ hmagic hversion h ↦
      DispatcherConfig.checkDispatcherVersion_bytes order hmagic hversion h,
    fun _ _ _ hnum hversion h ↦
      DispatcherConfigV1.checkDispatcherVersion_bytes order hnum hversion h⟩

def currentConfig : DispatcherConfig :=
  ⟨xdpDispatcherMagic, 2, 1, 0, .replicate 10 4, .replicate 10 50, .replicate 10 0⟩

def olderConfig : DispatcherConfigV1 := ⟨1, .replicate 10 4, .replicate 10 50⟩

def dispatcherInfo (value : List UInt8) (btfVersion : Except ℤ UInt32) : DispatcherInfo :=
  ⟨dispatcherName, [⟨4, 1, bpfFRdonlyProg, value⟩], btfVersion⟩

theorem isDispatcher_dispatcherInfo (value : List UInt8) (btfVersion : Except ℤ UInt32) :
    IsDispatcher (dispatcherInfo value btfVersion) value :=
  ⟨rfl, bpfFRdonlyProg, rfl, by decide⟩

theorem check_dispatcher_version_reads_both :
    checkDispatcherVersion .big (dispatcherInfo (currentConfig.bytes .big) (.error (-enoent))) =
        .ok (2, currentConfig) ∧
      (checkDispatcherVersion .big
        (dispatcherInfo (olderConfig.bytes .big (.replicate 3 9)) (.ok 1))).toOption.map Prod.fst =
        some 1 := by
  have hboth := check_dispatcher_version_reads_back .big
  refine ⟨hboth.1 currentConfig _ rfl rfl (isDispatcher_dispatcherInfo ..), ?_⟩
  rw [hboth.2 olderConfig (.replicate 3 9) _ (by decide) rfl (isDispatcher_dispatcherInfo ..)]
  rfl

end RoundTrip

end KernelBypass.Libxdp
