import KernelBypass.Foundation.ShardedCounter
import Mathlib.Data.Fintype.Basic

namespace KernelBypass.Common.XdpStats

open Foundation ShardedCounter

abbrev xdpAborted : UInt32 := 0
abbrev xdpRedirect : UInt32 := 4

abbrev xdpActionMax : UInt32 := xdpRedirect + 1

structure Datarec where
  rxPackets : UInt64
  rxBytes : UInt64
  deriving DecidableEq

structure XdpMd where
  data : UInt32
  dataEnd : UInt32
  ordered : data ≤ dataEnd

def XdpMd.length (ctx : XdpMd) : ℕ := ctx.dataEnd.toNat - ctx.data.toNat

/-- The array `xdp_stats_map`, of which every CPU has its own copy. -/
abbrev StatsMap (ι : Type) := ι → List Datarec

variable {ι : Type}

structure Call (ι : Type) where
  cpu : ι
  ctx : XdpMd
  action : UInt32

section Program

variable [DecidableEq ι]

def xdpStatsRecordAction (actionMax : UInt32) (stats : StatsMap ι) (cpu : ι) (ctx : XdpMd)
    (action : UInt32) : UInt32 × StatsMap ι :=
  if action ≥ actionMax then (xdpAborted, stats)
  else
    match (stats cpu)[action.toNat]? with
    | none => (xdpAborted, stats)
    | some rec =>
      (action, Function.update stats cpu ((stats cpu).set action.toNat
        ⟨rec.rxPackets + 1, rec.rxBytes + (ctx.dataEnd - ctx.data).toUInt64⟩))

def run (actionMax : UInt32) (stats : StatsMap ι) : List (Call ι) → List UInt32 × StatsMap ι
  | [] => ([], stats)
  | c :: calls =>
    let done := xdpStatsRecordAction actionMax stats c.cpu c.ctx c.action
    let rest := run actionMax done.2 calls
    (done.1 :: rest.1, rest.2)

end Program

def recordAt (stats : StatsMap ι) (cpu : ι) (action : UInt32) : Datarec :=
  (stats cpu).getD action.toNat ⟨0, 0⟩

def packets (stats : StatsMap ι) (cpu : ι) (action : UInt32) : ℕ :=
  (recordAt stats cpu action).rxPackets.toNat

def bytes (stats : StatsMap ι) (cpu : ι) (action : UInt32) : ℕ :=
  (recordAt stats cpu action).rxBytes.toNat

def Call.increment (weight : Call ι → ℕ) (c : Call ι) : Increment ι UInt32 :=
  ⟨c.cpu, c.action, weight c⟩

/-- `bpf_map_lookup_elem` finds a record for every key below the maximum. -/
def Full (actionMax : UInt32) (stats : StatsMap ι) : Prop :=
  ∀ cpu, (stats cpu).length = actionMax.toNat

section Lists

variable (actionMax : UInt32)

def zeroed : StatsMap ι := fun _ ↦ List.replicate actionMax.toNat ⟨0, 0⟩

/-- The value a call returns, given that the map has all its records. -/
def Call.answer (c : Call ι) : UInt32 := if c.action < actionMax then c.action else xdpAborted

def counted (calls : List (Call ι)) : List (Call ι) := calls.filter (·.action < actionMax)

def answeredWith (calls : List (Call ι)) (rets : List UInt32) (a : UInt32) : List (Call ι) :=
  ((calls.zip rets).filter (·.2 = a)).map (·.1)

variable {actionMax}

theorem full_zeroed : Full actionMax (zeroed actionMax : StatsMap ι) := fun _ ↦ List.length_replicate

theorem Full.toNat_lt {stats : StatsMap ι} {action : UInt32} (hfull : Full actionMax stats)
    (h : action < actionMax) (cpu : ι) : action.toNat < (stats cpu).length := by
  rw [hfull cpu]
  exact UInt32.lt_iff_toNat_lt.mp h

theorem recordAt_zeroed (cpu : ι) (a : UInt32) : recordAt (zeroed actionMax) cpu a = ⟨0, 0⟩ := by
  rw [recordAt, zeroed, List.getD_eq_getElem?_getD, List.getElem?_replicate]
  split_ifs <;> rfl

theorem demand_counted (weight : Call ι → ℕ) {a : UInt32} (ha : a < actionMax)
    (calls : List (Call ι)) :
    demand ((counted actionMax calls).map (Call.increment weight)) a =
      ((calls.filter (·.action = a)).map weight).sum := by
  have hfilter : (counted actionMax calls).filter (·.action = a) = calls.filter (·.action = a) := by
    rw [counted, List.filter_filter]
    exact List.filter_congr fun c _ ↦ by by_cases h : c.action = a <;> simp [h, ha]
  rw [demand, List.filter_map, List.map_map, ← hfilter]
  rfl

theorem answeredWith_answers (calls : List (Call ι)) (a : UInt32) :
    answeredWith calls (calls.map (Call.answer actionMax)) a =
      calls.filter (Call.answer actionMax · = a) := by
  induction calls with
  | nil => rfl
  | cons c calls ih =>
    by_cases h : c.answer actionMax = a <;> simp_all [answeredWith]

theorem sum_filter_cons (weight : Call ι → ℕ) (p : Call ι → Bool) (c : Call ι)
    (calls : List (Call ι)) : (((c :: calls).filter p).map weight).sum =
      (if p c then weight c else 0) + ((calls.filter p).map weight).sum := by
  rw [List.filter_cons]
  split_ifs <;> simp

/-- The calls with an action out of range are answered with `XDP_ABORTED` as well. -/
theorem sum_answers (weight : Call ι → ℕ) {a : UInt32} (ha : a < actionMax)
    (calls : List (Call ι)) :
    ((calls.filter (Call.answer actionMax · = a)).map weight).sum =
      ((calls.filter (·.action = a)).map weight).sum +
        if a = xdpAborted then ((calls.filter (actionMax ≤ ·.action)).map weight).sum else 0 := by
  induction calls with
  | nil => simp
  | cons c calls ih =>
    rw [sum_filter_cons, sum_filter_cons, sum_filter_cons, ih]
    by_cases h : c.action < actionMax
    · have hanswer : c.answer actionMax = c.action := if_pos h
      have hin : ¬ actionMax ≤ c.action := UInt32.not_le.mpr h
      simp only [hanswer, hin, decide_false, Bool.false_eq_true, if_false, Nat.zero_add, Nat.add_assoc]
    · have hanswer : c.answer actionMax = xdpAborted := if_neg h
      have hout : actionMax ≤ c.action := UInt32.not_lt.mp h
      have hne : c.action ≠ a := fun he ↦ h (he ▸ ha)
      rcases eq_or_ne a xdpAborted with rfl | hother
      · simp only [hanswer, hout, hne, decide_true, decide_false, Bool.false_eq_true, if_true,
          if_false, Nat.zero_add, Nat.add_left_comm]
      · simp only [hanswer, hne, hother, hother.symm, decide_false, Bool.false_eq_true, if_false,
          Nat.zero_add]

end Lists

variable [DecidableEq ι]

section Step

variable {actionMax : UInt32} {stats : StatsMap ι} {cpu : ι} {ctx : XdpMd} {action : UInt32}

theorem XdpMd.toNat_length (ctx : XdpMd) : (ctx.dataEnd - ctx.data).toUInt64.toNat = ctx.length := by
  rw [UInt32.toNat_toUInt64, UInt32.toNat_sub_of_le _ _ ctx.ordered]
  rfl

theorem record_of_ge (h : actionMax ≤ action) :
    xdpStatsRecordAction actionMax stats cpu ctx action = (xdpAborted, stats) := if_pos h

theorem record_of_lt (hfull : Full actionMax stats) (h : action < actionMax) :
    xdpStatsRecordAction actionMax stats cpu ctx action =
      (action, Function.update stats cpu ((stats cpu).set action.toNat
        ⟨(recordAt stats cpu action).rxPackets + 1,
          (recordAt stats cpu action).rxBytes + (ctx.dataEnd - ctx.data).toUInt64⟩)) := by
  have hlt := hfull.toNat_lt h cpu
  have hget : (stats cpu)[action.toNat]? = some (recordAt stats cpu action) := by
    rw [recordAt, List.getD_eq_getElem?_getD, List.getElem?_eq_getElem hlt, Option.getD_some]
  rw [xdpStatsRecordAction, if_neg (UInt32.not_le.mpr h), hget]

theorem recordAt_set (hfull : Full actionMax stats) (h : action < actionMax) (rec : Datarec) (i : ι)
    (k : UInt32) :
    recordAt (Function.update stats cpu ((stats cpu).set action.toNat rec)) i k =
      if i = cpu ∧ k = action then rec else recordAt stats i k := by
  have hlt := hfull.toNat_lt h cpu
  by_cases hi : i = cpu
  · subst hi
    rw [recordAt, Function.update_self]
    by_cases hk : k = action
    · subst hk
      rw [if_pos ⟨rfl, rfl⟩]
      simp [List.getD_eq_getElem?_getD, hlt]
    · have hne : action.toNat ≠ k.toNat := fun he ↦ hk (UInt32.toNat_inj.mp he.symm)
      rw [if_neg (by simp [hk]), recordAt]
      simp [List.getD_eq_getElem?_getD, hne]
  · rw [if_neg (by simp [hi]), recordAt, Function.update_of_ne hi, recordAt]

theorem full_update (hfull : Full actionMax stats) (rec : Datarec) :
    Full actionMax (Function.update stats cpu ((stats cpu).set action.toNat rec)) := by
  intro i
  by_cases hi : i = cpu
  · subst hi
    rw [Function.update_self, List.length_set, hfull]
  · rw [Function.update_of_ne hi, hfull]

/-- A counter of 64 bits wraps around. -/
theorem adds_set (field : Datarec → UInt64) {amount : ℕ} (hfull : Full actionMax stats)
    (h : action < actionMax) {rec : Datarec}
    (hfield : (field rec).toNat ≡ (field (recordAt stats cpu action)).toNat + amount [MOD 2 ^ 64]) :
    Adds (2 ^ 64) ⟨cpu, action, amount⟩ (fun i k ↦ (field (recordAt stats i k)).toNat)
      (fun i k ↦ (field (recordAt (Function.update stats cpu
        ((stats cpu).set action.toNat rec)) i k)).toNat) where
  here := by
    simp only [recordAt_set hfull h, and_self, if_true]
    exact hfield
  elsewhere := by
    intro i k hne
    rw [recordAt_set hfull h, if_neg (by tauto)]

theorem record_adds (hfull : Full actionMax stats) {c : Call ι} (h : c.action < actionMax) :
    ∃ stats', xdpStatsRecordAction actionMax stats c.cpu c.ctx c.action = (c.action, stats') ∧
      Full actionMax stats' ∧
      Adds (2 ^ 64) (c.increment fun _ ↦ 1) (packets stats) (packets stats') ∧
      Adds (2 ^ 64) (c.increment (·.ctx.length)) (bytes stats) (bytes stats') := by
  refine ⟨_, record_of_lt hfull h, full_update hfull _, adds_set (·.rxPackets) hfull h ?_,
    adds_set (·.rxBytes) hfull h ?_⟩
  · dsimp only
    rw [UInt64.toNat_add]
    exact Nat.mod_modEq _ _
  · dsimp only
    rw [UInt64.toNat_add, XdpMd.toNat_length]
    exact Nat.mod_modEq _ _

end Step

section Runs

variable {actionMax : UInt32} {stats : StatsMap ι}

theorem run_trace (hfull : Full actionMax stats) (calls : List (Call ι)) :
    (run actionMax stats calls).1 = calls.map (Call.answer actionMax) ∧
      Trace (Adds (2 ^ 64)) ((counted actionMax calls).map (Call.increment fun _ ↦ 1))
        (packets stats) (packets (run actionMax stats calls).2) ∧
      Trace (Adds (2 ^ 64)) ((counted actionMax calls).map (Call.increment (·.ctx.length)))
        (bytes stats) (bytes (run actionMax stats calls).2) := by
  induction calls generalizing stats with
  | nil => exact ⟨rfl, .nil _, .nil _⟩
  | cons c calls ih =>
    by_cases h : c.action < actionMax
    · obtain ⟨stats', hrec, hfull', hpackets, hbytes⟩ := record_adds hfull h
      obtain ⟨hrets, hpackets', hbytes'⟩ := ih hfull'
      have hcounted : counted actionMax (c :: calls) = c :: counted actionMax calls := by
        simp [counted, h]
      have hanswer : c.answer actionMax = c.action := if_pos h
      rw [run, hrec, hcounted, List.map_cons, hanswer, hrets]
      exact ⟨rfl, .cons hpackets hpackets', .cons hbytes hbytes'⟩
    · obtain ⟨hrets, hpackets', hbytes'⟩ := ih hfull
      have hcounted : counted actionMax (c :: calls) = counted actionMax calls := by
        simp [counted, h]
      have hanswer : c.answer actionMax = xdpAborted := if_neg h
      rw [run, record_of_ge (UInt32.not_lt.mp h), hcounted, List.map_cons, hanswer, hrets]
      exact ⟨rfl, hpackets', hbytes'⟩

variable [Fintype ι]

theorem total_run (calls : List (Call ι)) {a : UInt32} (ha : a < actionMax) :
    total (packets (run actionMax (zeroed actionMax) calls).2) a ≡
        (calls.filter (·.action = a)).length [MOD 2 ^ 64] ∧
      total (bytes (run actionMax (zeroed actionMax) calls).2) a ≡
        ((calls.filter (·.action = a)).map (·.ctx.length)).sum [MOD 2 ^ 64] := by
  obtain ⟨-, hpackets, hbytes⟩ := run_trace (full_zeroed (ι := ι)) calls
  have hpackets := trace_total hpackets a
  have hbytes := trace_total hbytes a
  have hzero : total (packets (zeroed actionMax : StatsMap ι)) a = 0 :=
    Finset.sum_eq_zero fun cpu _ ↦ by rw [packets, recordAt_zeroed]; rfl
  have hzero' : total (bytes (zeroed actionMax : StatsMap ι)) a = 0 :=
    Finset.sum_eq_zero fun cpu _ ↦ by rw [bytes, recordAt_zeroed]; rfl
  rw [hzero, Nat.zero_add, demand_counted _ ha] at hpackets
  rw [hzero', Nat.zero_add, demand_counted _ ha] at hbytes
  exact ⟨by simpa using hpackets, hbytes⟩

end Runs

/-- The records of `a` count the calls made with `a`. These are the calls answered with
`a`, except that `XDP_ABORTED` also answers the calls out of range, which no record
counts. -/
theorem stats_count_calls [Fintype ι] (actionMax : UInt32) (calls : List (Call ι)) (a : UInt32)
    (ha : a < actionMax) : ∃ rets stats, run actionMax (zeroed actionMax) calls = (rets, stats) ∧
      total (packets stats) a ≡ (calls.filter (·.action = a)).length [MOD 2 ^ 64] ∧
      total (bytes stats) a ≡
        ((calls.filter (·.action = a)).map (·.ctx.length)).sum [MOD 2 ^ 64] ∧
      (answeredWith calls rets a).length = (calls.filter (·.action = a)).length +
        (if a = xdpAborted then (calls.filter (actionMax ≤ ·.action)).length else 0) ∧
      ((answeredWith calls rets a).map (·.ctx.length)).sum =
        ((calls.filter (·.action = a)).map (·.ctx.length)).sum + (if a = xdpAborted
          then ((calls.filter (actionMax ≤ ·.action)).map (·.ctx.length)).sum else 0) := by
  obtain ⟨hpackets, hbytes⟩ := total_run calls ha
  have hrets : (run actionMax (zeroed actionMax) calls).1 = calls.map (Call.answer actionMax) :=
    (run_trace full_zeroed calls).1
  refine ⟨_, _, rfl, hpackets, hbytes, ?_, ?_⟩
  · rw [hrets, answeredWith_answers]
    simpa using sum_answers (fun _ ↦ 1) ha calls
  · rw [hrets, answeredWith_answers]
    exact sum_answers (·.ctx.length) ha calls

def packetOf (length : UInt32) : XdpMd := ⟨0, length, UInt32.zero_le⟩

theorem stats_count_calls_two_cpus :
    ∃ rets stats, run xdpActionMax (zeroed xdpActionMax)
        [⟨0, packetOf 60, 2⟩, ⟨1, packetOf 90, 2⟩, ⟨1, packetOf 64, 3⟩] = (rets, stats) ∧
      total (packets (stats : StatsMap (Fin 2))) 2 ≡ 2 [MOD 2 ^ 64] ∧
      total (bytes stats) 2 ≡ 150 [MOD 2 ^ 64] := by
  obtain ⟨rets, stats, hrun, hpackets, hbytes, _⟩ := stats_count_calls xdpActionMax
    [⟨(0 : Fin 2), packetOf 60, 2⟩, ⟨1, packetOf 90, 2⟩, ⟨1, packetOf 64, 3⟩] 2 (by decide)
  exact ⟨rets, stats, hrun, hpackets, hbytes⟩

/-- A call with the first action out of range is answered with `XDP_ABORTED` and counted
nowhere. -/
theorem stats_miss_out_of_range :
    ∃ rets stats, run xdpActionMax (zeroed xdpActionMax) [⟨(0 : Fin 1), packetOf 60, 5⟩] =
        (rets, stats) ∧
      (answeredWith [⟨(0 : Fin 1), packetOf 60, 5⟩] rets xdpAborted).length = 1 ∧
      ¬ total (packets stats) xdpAborted ≡ 1 [MOD 2 ^ 64] := by
  exact ⟨_, _, rfl, by decide, by decide⟩

end KernelBypass.Common.XdpStats
