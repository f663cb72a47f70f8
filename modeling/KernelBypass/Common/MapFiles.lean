import KernelBypass.Common.CommonParams

namespace KernelBypass.Common.MapFiles

open CommonParams

abbrev pathMax : ℕ := 4096
abbrev intMax : ℕ := 2147483647
abbrev exitFailBpf : ℤ := 40

abbrev enoent : ℤ := 2
abbrev einval : ℤ := 22
abbrev enametoolong : ℤ := 36

variable {ι : Type}

/-- The system calls and the C library, as they answer one call. `ι` is what a query
about a map fills in. -/
structure BpfEnvironment (ι : Type) where
  bpfObjGet : List UInt8 → ℤ
  bpfObjGetInfoByFd : ℤ → ι → ℤ × ι
  errnoObjGet : List UInt8 → Int32
  errnoInfo : ℤ → Int32
  strerror : Int32 → String

def text (s : String) : List UInt8 := s.toUTF8.toList

def mapPath (dir name : CString) : List UInt8 := dir.bytes ++ 47 :: name.bytes

/-- `snprintf` of `"%s/%s"` to an array of `PATH_MAX` characters: the length of the whole
text, or a negative value where an `int` cannot hold it, and the string in the array. -/
def snprintfPath (dir name : CString) : ℤ × List UInt8 :=
  if (mapPath dir name).length ≤ intMax then
    ((mapPath dir name).length, (mapPath dir name).take (pathMax - 1))
  else (-1, [])

/-- What a call of `open_bpf_map_file` has done: the value it returns, the path that it
has opened, what `info` points to, and what it has written to `stderr`. -/
structure MapFile (ι : Type) where
  ret : ℤ
  opened : Option (List UInt8)
  info : Option ι
  stderr : List UInt8

def openBpfMapFile (env : BpfEnvironment ι) (pinDir mapname : CString) (info : Option ι) :
    MapFile ι :=
  let (len, filename) := snprintfPath pinDir mapname
  if len < 0 then ⟨-1, none, info, text "ERR: constructing full mapname path\n"⟩
  else
    let fd := env.bpfObjGet filename
    if fd < 0 then
      let errno := env.errnoObjGet filename
      ⟨fd, some filename, info, text "WARN: Failed to open bpf map file:" ++ filename ++
        text (" err(" ++ toString errno ++ "):" ++ env.strerror errno ++ "\n")⟩
    else
      match info with
      | none => ⟨fd, some filename, none, []⟩
      | some info =>
        let (err, info) := env.bpfObjGetInfoByFd fd info
        if err ≠ 0 then
          ⟨exitFailBpf, some filename, some info, text
            ("ERR: open_bpf_map_file() can't get info - " ++ env.strerror (env.errnoInfo fd) ++
              "\n")⟩
        else ⟨fd, some filename, some info, []⟩

/-- A value that is not negative is the descriptor of the map, and the query that was
asked for has succeeded. -/
def Right (env : BpfEnvironment ι) (pinDir mapname : CString) (info : Option ι) (f : MapFile ι) :
    Prop :=
  0 ≤ f.ret → f.opened = some (mapPath pinDir mapname) ∧
    f.ret = env.bpfObjGet (mapPath pinDir mapname) ∧
    ∀ i ∈ info, (env.bpfObjGetInfoByFd f.ret i).1 = 0

theorem take_mapPath_iff {dir name : CString} :
    (mapPath dir name).take (pathMax - 1) = mapPath dir name ↔
      (mapPath dir name).length < pathMax := by
  rw [List.take_eq_self_iff]
  exact Nat.le_sub_one_iff_lt (by decide)

section Opened

variable (env : BpfEnvironment ι) {pinDir mapname : CString} (info : Option ι)
  (h : (mapPath pinDir mapname).length ≤ intMax)

include h

theorem openBpfMapFile_of_error
    (hfd : env.bpfObjGet ((mapPath pinDir mapname).take (pathMax - 1)) < 0) :
    (openBpfMapFile env pinDir mapname info).ret =
      env.bpfObjGet ((mapPath pinDir mapname).take (pathMax - 1)) := by
  rw [openBpfMapFile, snprintfPath, if_pos h]
  dsimp only
  rw [if_neg (by omega), if_pos hfd]

theorem openBpfMapFile_of_opened
    (hfd : 0 ≤ env.bpfObjGet ((mapPath pinDir mapname).take (pathMax - 1))) :
    (openBpfMapFile env pinDir mapname info).opened =
        some ((mapPath pinDir mapname).take (pathMax - 1)) ∧
      (openBpfMapFile env pinDir mapname info).ret =
        if ∀ i ∈ info, (env.bpfObjGetInfoByFd
          (env.bpfObjGet ((mapPath pinDir mapname).take (pathMax - 1))) i).1 = 0 then
          env.bpfObjGet ((mapPath pinDir mapname).take (pathMax - 1))
        else exitFailBpf := by
  rw [openBpfMapFile, snprintfPath, if_pos h]
  dsimp only
  rw [if_neg (by omega), if_neg (by omega)]
  cases info with
  | none => simp
  | some i =>
    dsimp only
    split_ifs with herr hall hall
    · exact absurd (hall i rfl) herr
    · exact ⟨rfl, rfl⟩
    · exact ⟨rfl, rfl⟩
    · refine absurd (fun j hj ↦ ?_) hall
      cases hj
      exact not_not.mp herr

end Opened

theorem open_bpf_map_file_right_iff (env : BpfEnvironment ι) (pinDir mapname : CString)
    (info : Option ι) :
    Right env pinDir mapname info (openBpfMapFile env pinDir mapname info) ↔
      intMax < (mapPath pinDir mapname).length ∨
      env.bpfObjGet ((mapPath pinDir mapname).take (pathMax - 1)) < 0 ∨
      (mapPath pinDir mapname).length < pathMax ∧
        ∀ i ∈ info, (env.bpfObjGetInfoByFd (env.bpfObjGet (mapPath pinDir mapname)) i).1 = 0 := by
  by_cases hint : (mapPath pinDir mapname).length ≤ intMax
  swap
  · have hneg : snprintfPath pinDir mapname = (-1, []) := if_neg hint
    refine iff_of_true (fun hret ↦ ?_) (Or.inl (Nat.not_le.mp hint))
    rw [openBpfMapFile, hneg] at hret
    simp at hret
  rcases lt_or_ge (env.bpfObjGet ((mapPath pinDir mapname).take (pathMax - 1))) 0 with hfd | hfd
  · refine iff_of_true (fun hret ↦ ?_) (Or.inr (Or.inl hfd))
    rw [openBpfMapFile_of_error env info hint hfd] at hret
    omega
  obtain ⟨hopened, hvalue⟩ := openBpfMapFile_of_opened env info hint hfd
  constructor
  · intro hright
    -- Both ways out give a value that is not negative.
    have hret : 0 ≤ (openBpfMapFile env pinDir mapname info).ret := by
      rw [hvalue]
      split_ifs
      · exact hfd
      · decide
    obtain ⟨hpath, hdescriptor, hinfo⟩ := hright hret
    rw [hdescriptor] at hinfo
    have htake := Option.some_inj.mp (hopened.symm.trans hpath)
    exact Or.inr (Or.inr ⟨take_mapPath_iff.mp htake, hinfo⟩)
  · rintro (hlong | hneg | ⟨hlen, hinfo⟩) _
    · omega
    · omega
    · rw [take_mapPath_iff.mpr hlen] at hopened hvalue
      rw [if_pos hinfo] at hvalue
      exact ⟨hopened, hvalue, by rwa [hvalue]⟩

def noInfo : BpfEnvironment Unit where
  bpfObjGet _ := 3
  bpfObjGetInfoByFd _ _ := (-1, ())
  errnoObjGet _ := 0
  errnoInfo _ := 22
  strerror _ := "Invalid argument"

/-- A failed query is answered by 40, which is no descriptor, and a path of 4097 characters
by the descriptor of another file. -/
theorem open_bpf_map_file_wrong :
    ((openBpfMapFile noInfo (letters 3) (letters 1) (some ())).ret = 40 ∧
      ¬ Right noInfo (letters 3) (letters 1) (some ())
        (openBpfMapFile noInfo (letters 3) (letters 1) (some ()))) ∧
    (openBpfMapFile noInfo (letters 4095) (letters 1) none).ret = 3 ∧
      (openBpfMapFile noInfo (letters 4095) (letters 1) none).opened =
        some (letters 4095).bytes ∧
      ¬ Right noInfo (letters 4095) (letters 1) none
        (openBpfMapFile noInfo (letters 4095) (letters 1) none) := by
  have hlen : (mapPath (letters 4095) (letters 1)).length = 4097 := by
    rw [mapPath, List.length_append, length_letters]
    rfl
  have htake : (mapPath (letters 4095) (letters 1)).take (pathMax - 1) = (letters 4095).bytes :=
    List.take_left' (length_letters 4095)
  obtain ⟨hopened, hret⟩ :=
    openBpfMapFile_of_opened noInfo none (hlen.trans_le (by decide)) (by decide)
  refine ⟨⟨by decide, fun hright ↦ ?_⟩, hret, by rw [hopened, htake], fun hright ↦ ?_⟩
  · exact absurd (hright (by decide)).2.1 (by decide)
  · have hpath := hopened.symm.trans (hright (hret ▸ by decide)).1
    have hshort := take_mapPath_iff.mp (Option.some_inj.mp hpath)
    rw [hlen] at hshort
    exact absurd hshort (by decide)

section Reuse

variable (env : BpfEnvironment ι) (reuseFd : CString → ℤ → ℤ) (path : CString)

/-- The loop of `reuse_maps` over the names of the maps that are left: the value returned
and the paths opened. -/
def reuseLoop : List CString → ℤ × List (List UInt8)
  | [] => (0, [])
  | name :: maps =>
    let (len, buf) := snprintfPath path name
    if len < 0 then (-einval, [])
    else if len ≥ pathMax then (-enametoolong, [])
    else
      let pinnedMapFd := env.bpfObjGet buf
      if pinnedMapFd < 0 then (pinnedMapFd, [buf])
      else
        let err := reuseFd name pinnedMapFd
        if err ≠ 0 then (err, [buf])
        else ((reuseLoop maps).1, buf :: (reuseLoop maps).2)

/-- A null `obj` or `path` is `none`. -/
def reuseMaps (obj : Option (List CString)) (path : Option CString) : ℤ × List (List UInt8) :=
  match obj, path with
  | none, _ => (-enoent, [])
  | some _, none => (-einval, [])
  | some maps, some path => reuseLoop env reuseFd path maps

variable {env reuseFd path}

theorem reuseLoop_long {name : CString} (h : pathMax ≤ (mapPath path name).length)
    (maps : List CString) :
    ∃ ret, ret < 0 ∧ reuseLoop env reuseFd path (name :: maps) = (ret, []) := by
  by_cases hint : (mapPath path name).length ≤ intMax
  · refine ⟨-enametoolong, by decide, ?_⟩
    rw [reuseLoop, snprintfPath, if_pos hint]
    dsimp only
    rw [if_neg (by omega), if_pos (Int.ofNat_le.mpr h)]
  · refine ⟨-einval, by decide, ?_⟩
    rw [reuseLoop, snprintfPath, if_neg hint]
    rfl

theorem reuseLoop_short {name : CString} (h : (mapPath path name).length < pathMax)
    (maps : List CString) :
    reuseLoop env reuseFd path (name :: maps) =
      if env.bpfObjGet (mapPath path name) < 0 then
        (env.bpfObjGet (mapPath path name), [mapPath path name])
      else if reuseFd name (env.bpfObjGet (mapPath path name)) ≠ 0 then
        (reuseFd name (env.bpfObjGet (mapPath path name)), [mapPath path name])
      else ((reuseLoop env reuseFd path maps).1,
        mapPath path name :: (reuseLoop env reuseFd path maps).2) := by
  rw [reuseLoop, snprintfPath, if_pos (h.le.trans (by decide)), take_mapPath_iff.mpr h]
  dsimp only
  rw [if_neg (by omega), if_neg (by omega)]

theorem reuseLoop_opened (maps : List CString) :
    (reuseLoop env reuseFd path maps).2 <+: maps.map (mapPath path) := by
  induction maps with
  | nil => exact List.nil_prefix
  | cons name maps ih =>
    rcases lt_or_ge (mapPath path name).length pathMax with hshort | hlong
    · rw [reuseLoop_short hshort]
      split_ifs
      · simp
      · simp
      · simpa using ih
    · obtain ⟨ret, _, hloop⟩ := reuseLoop_long hlong maps
      rw [hloop]
      exact List.nil_prefix

theorem reuseLoop_eq_zero_iff (maps : List CString) :
    (reuseLoop env reuseFd path maps).1 = 0 ↔ ∀ name ∈ maps,
      (mapPath path name).length < pathMax ∧ 0 ≤ env.bpfObjGet (mapPath path name) ∧
        reuseFd name (env.bpfObjGet (mapPath path name)) = 0 := by
  induction maps with
  | nil => simp [reuseLoop]
  | cons name maps ih =>
    rw [List.forall_mem_cons, ← ih]
    rcases lt_or_ge (mapPath path name).length pathMax with hshort | hlong
    · rw [reuseLoop_short hshort]
      split_ifs with hfd herr
      · exact iff_of_false hfd.ne fun hall ↦ absurd hall.1.2.1 (Int.not_le.mpr hfd)
      · exact iff_of_false herr fun hall ↦ herr hall.1.2.2
      · exact (and_iff_right ⟨hshort, Int.not_lt.mp hfd, not_not.mp herr⟩).symm
    · obtain ⟨ret, hret, hloop⟩ := reuseLoop_long hlong maps
      rw [hloop]
      exact iff_of_false hret.ne fun hall ↦ absurd hall.1.1 (Nat.not_lt.mpr hlong)

/-- Where `open_bpf_map_file` opens the beginning of a path, `reuse_maps` stops: it only
ever opens the files of its maps. -/
theorem reuseMaps_opened {obj : Option (List CString)} {path : Option CString} {file : List UInt8}
    (h : file ∈ (reuseMaps env reuseFd obj path).2) :
    ∃ maps ∈ obj, ∃ dir ∈ path, ∃ name ∈ maps, file = mapPath dir name := by
  match obj, path with
  | none, _ => cases h
  | some _, none => cases h
  | some maps, some dir =>
    obtain ⟨name, hname, rfl⟩ := List.mem_map.mp ((reuseLoop_opened maps).mem h)
    exact ⟨maps, rfl, dir, rfl, name, hname, rfl⟩

theorem reuseMaps_eq_zero_iff {obj : Option (List CString)} {path : Option CString} :
    (reuseMaps env reuseFd obj path).1 = 0 ↔ ∃ maps ∈ obj, ∃ dir ∈ path, ∀ name ∈ maps,
      (mapPath dir name).length < pathMax ∧ 0 ≤ env.bpfObjGet (mapPath dir name) ∧
        reuseFd name (env.bpfObjGet (mapPath dir name)) = 0 := by
  match obj, path with
  | none, _ => simp [reuseMaps, enoent]
  | some _, none => simp [reuseMaps, einval]
  | some maps, some dir => simpa [reuseMaps] using reuseLoop_eq_zero_iff maps

end Reuse

end KernelBypass.Common.MapFiles
