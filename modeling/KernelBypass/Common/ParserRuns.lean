import KernelBypass.Common.ParsingHelpers
import Mathlib.Data.Vector.Basic

namespace KernelBypass.Common.ParserRuns

open Foundation Buffer Access Linux ParsingHelpers

variable {vlanMaxDepth : ℕ}

/-- The array of a `struct collect_vlans`, or `NULL`. -/
abbrev VlanIds (vlanMaxDepth : ℕ) := Option (List.Vector UInt16 vlanMaxDepth)

inductive Call (vlanMaxDepth : ℕ)
  | ethhdr
  | ethhdrVlan (vlans : VlanIds vlanMaxDepth)
  | ip6hdr
  | iphdr
  | icmp6hdr
  | icmphdr
  | icmphdrCommon
  | udphdr
  | tcphdr

def withoutVlans (parser : XdpProgram Parsed) : XdpProgram (Parsed × CollectVlans) := do
  let parsed ← parser
  return (parsed, none)

namespace Call

def vlans : Call vlanMaxDepth → CollectVlans
  | ethhdrVlan vlans => vlans.map List.Vector.toList
  | _ => none

def parse (order : ByteOrder) (nh : ℕ) : Call vlanMaxDepth → XdpProgram (Parsed × CollectVlans)
  | ethhdr => withoutVlans (parseEthhdr order vlanMaxDepth nh)
  | ethhdrVlan vlans => parseEthhdrVlan order vlanMaxDepth nh (vlans.map List.Vector.toList)
  | ip6hdr => withoutVlans (parseIp6hdr nh)
  | iphdr => withoutVlans (parseIphdr nh)
  | icmp6hdr => withoutVlans (parseIcmp6hdr nh)
  | icmphdr => withoutVlans (parseIcmphdr nh)
  | icmphdrCommon => withoutVlans (parseIcmphdrCommon nh)
  | udphdr => withoutVlans (parseUdphdr order nh)
  | tcphdr => withoutVlans (parseTcphdr nh)

def fixedSize : Call vlanMaxDepth → ℕ
  | ethhdr | ethhdrVlan _ => Ethhdr.size
  | ip6hdr => Ipv6hdr.size
  | iphdr => Iphdr.size
  | icmp6hdr => Icmp6hdr.size
  | icmphdr => Icmphdr.size
  | icmphdrCommon => IcmphdrCommon.size
  | udphdr => Udphdr.size
  | tcphdr => Tcphdr.size

/-- The length of the header at the cursor, which IPv4 and TCP headers state
themselves. -/
def headerSize (p : Frame) (nh : ℕ) : Call vlanMaxDepth → ℕ
  | iphdr => 4 * Iphdr.ihl (cell p nh)
  | tcphdr => 4 * Tcphdr.doff (cell p (nh + Tcphdr.doffByte))
  | call => call.fixedSize

end Call

/-- All that a call can do. Only `parse_udphdr` reports a failure after it has moved
the cursor. -/
inductive Outcome (p : Frame) (call : Call vlanMaxDepth) (nh : ℕ) : Parsed × CollectVlans → Prop
  | failed : Outcome p call nh (.failed nh, call.vlans)
  | shortLength (hcall : call = .udphdr) (hfit : nh + 8 ≤ p.length) (hlen : netWord p (nh + 4) < 8) :
      Outcome p call nh (⟨-1, nh + 8, some nh⟩, none)
  | parsed {ret : ℤ} {pos : ℕ} {vlans : CollectVlans} (hret : 0 ≤ ret)
      (hsize : call.fixedSize ≤ call.headerSize p nh) (hwhole : nh + call.headerSize p nh ≤ pos)
      (hpos : pos ≤ p.length) (hids : ∀ ids ∈ vlans, ids.length = vlanMaxDepth) :
      Outcome p call nh (⟨ret, pos, some nh⟩, vlans)

section Step

variable {order : ByteOrder} {p : Frame} {nh : ℕ} {call : Call vlanMaxDepth}

theorem withoutVlans_run {parser : XdpProgram Parsed} {r : Parsed} (h : parser p = .ok (r, p)) :
    withoutVlans parser p = .ok ((r, none), p) := by
  rw [withoutVlans, bind_run h, pure_run]

theorem fixed_cases {size field : ℕ} (hf : field < size) (hvlans : call.vlans = none)
    (hfixed : call.fixedSize = size) (hsize : call.headerSize p nh = size) :
    ∃ r, withoutVlans (parseFixed size field nh) p = .ok (r, p) ∧ Outcome p call nh r := by
  refine ⟨_, withoutVlans_run (parseFixed_run hf nh), ?_⟩
  split_ifs with hfit
  · exact .parsed (by simp) (by omega) (by omega) hfit (by simp)
  · rw [← hvlans]
    exact .failed

theorem VlanIds.length_eq {vlans : VlanIds vlanMaxDepth} :
    ∀ ids ∈ vlans.map List.Vector.toList, ids.length = vlanMaxDepth := by
  intro ids h
  obtain ⟨v, _, rfl⟩ := Option.mem_map.mp h
  exact v.toList_length

theorem Outcome.of_ethernet (hfixed : call.fixedSize = 14) (hsize : call.headerSize p nh = 14)
    {ret : ℤ} (hret : 0 ≤ ret) (hfit : nh + 14 ≤ p.length) {vlans : CollectVlans}
    (hids : ∀ ids ∈ vlans, ids.length = vlanMaxDepth) :
    Outcome p call nh
      (⟨ret, nh + 14 + 4 * (skippedIds order p vlanMaxDepth (nh + 12)).length, some nh⟩, vlans) := by
  have hin := skippedIds_inside order (p := p) (n := vlanMaxDepth) (t := nh + 12) (by omega)
  exact .parsed hret (by omega) (by omega) (by omega) hids

theorem length_collected {ids : List UInt16} (h : ids.length = vlanMaxDepth) (t : ℕ) :
    (overwrite ids 0 (skippedIds order p vlanMaxDepth t)).length = vlanMaxDepth := by
  have hle : (skippedIds order p vlanMaxDepth t).length ≤ vlanMaxDepth := length_skippedIds_le _ t
  rw [length_overwrite (by omega), h]

theorem Call.parse_cases (order : ByteOrder) (p : Frame) (nh : ℕ) (call : Call vlanMaxDepth) :
    ∃ r, call.parse order nh p = .ok (r, p) ∧ Outcome p call nh r := by
  cases call with
  | ethhdr =>
    refine ⟨_, withoutVlans_run (parseEthhdr_run vlanMaxDepth nh), ?_⟩
    split_ifs with hfit
    · exact .of_ethernet rfl rfl (Int.natCast_nonneg _) hfit (by simp)
    · exact .failed
  | ethhdrVlan vlans =>
    refine ⟨_, parseEthhdrVlan_run fun ids h ↦ (VlanIds.length_eq ids h).ge, ?_⟩
    split_ifs with hfit
    · refine .of_ethernet rfl rfl (Int.natCast_nonneg _) hfit fun ids' h ↦ ?_
      obtain ⟨ids, hids, rfl⟩ := Option.mem_map.mp h
      exact length_collected (VlanIds.length_eq ids hids) _
    · exact .failed
  | ip6hdr => exact fixed_cases (by decide) rfl rfl rfl
  | iphdr =>
    refine ⟨_, withoutVlans_run (parseIphdr_run nh), ?_⟩
    split_ifs with hfit
    · refine .parsed (Int.natCast_nonneg _) ?_ (Nat.le_refl _) hfit.2.2 (by simp)
      change 20 ≤ 4 * Iphdr.ihl (cell p nh)
      omega
    · exact .failed
  | icmp6hdr => exact fixed_cases (by decide) rfl rfl rfl
  | icmphdr => exact fixed_cases (by decide) rfl rfl rfl
  | icmphdrCommon => exact fixed_cases (by decide) rfl rfl rfl
  | udphdr =>
    refine ⟨_, withoutVlans_run (parseUdphdr_run nh), ?_⟩
    split_ifs with hfit hlen
    · exact .shortLength rfl hfit hlen
    · exact .parsed (by omega) (Nat.le_refl _) (Nat.le_refl _) hfit (by simp)
    · exact .failed
  | tcphdr =>
    refine ⟨_, withoutVlans_run (parseTcphdr_run nh), ?_⟩
    split_ifs with hfit
    · refine .parsed (Int.natCast_nonneg _) ?_ (Nat.le_refl _) hfit.2.2 (by simp)
      change 20 ≤ 4 * Tcphdr.doff (cell p (nh + 12))
      omega
    · exact .failed

end Step

section Runs

variable (order : ByteOrder)

structure Visit (vlanMaxDepth : ℕ) where
  call : Call vlanMaxDepth
  cursor : ℕ
  result : Parsed × CollectVlans

def runCalls : List (Call vlanMaxDepth) → ℕ → XdpProgram (List (Visit vlanMaxDepth) × ℕ)
  | [], nh => return ([], nh)
  | call :: calls, nh => do
    let r ← call.parse order nh
    let rest ← runCalls calls r.1.pos
    return (⟨call, nh, r⟩ :: rest.1, rest.2)

structure Safe (p : Frame) (v : Visit vlanMaxDepth) : Prop where
  forward : v.cursor ≤ v.result.1.pos
  inside : v.result.1.pos ≤ p.length
  pointer : v.result.1.ret ≠ -1 → v.result.1.hdr = some v.cursor
  whole : v.result.1.ret ≠ -1 → v.call.fixedSize ≤ v.call.headerSize p v.cursor ∧
    v.cursor + v.call.headerSize p v.cursor ≤ v.result.1.pos
  ids : ∀ ids ∈ v.result.2, ids.length = vlanMaxDepth

theorem Call.vlans_length (call : Call vlanMaxDepth) :
    ∀ ids ∈ call.vlans, ids.length = vlanMaxDepth := by
  cases call with
  | ethhdrVlan vlans => exact VlanIds.length_eq
  | _ => simp [Call.vlans]

theorem Outcome.safe {p : Frame} {call : Call vlanMaxDepth} {nh : ℕ} {r : Parsed × CollectVlans}
    (h : Outcome p call nh r) (hnh : nh ≤ p.length) : Safe p ⟨call, nh, r⟩ := by
  cases h with
  | failed =>
    exact ⟨Nat.le_refl nh, hnh, fun hret ↦ absurd rfl hret, fun hret ↦ absurd rfl hret,
      call.vlans_length⟩
  | shortLength hcall hfit hlen =>
    exact ⟨Nat.le_add_right nh 8, hfit, fun hret ↦ absurd rfl hret, fun hret ↦ absurd rfl hret,
      by simp⟩
  | parsed hret hsize hwhole hpos hids =>
    exact ⟨by dsimp only; omega, hpos, fun _ ↦ rfl, fun _ ↦ ⟨hsize, hwhole⟩, hids⟩

theorem parser_runs_safe (calls : List (Call vlanMaxDepth)) (p : Frame) (nh : ℕ)
    (h : nh ≤ p.length) : ∃ visits final, runCalls order calls nh p = .ok ((visits, final), p) ∧
      visits.map (·.call) = calls ∧
      visits.map (·.cursor) ++ [final] = nh :: visits.map (·.result.1.pos) ∧
      (nh :: visits.map (·.result.1.pos)).Pairwise (· ≤ ·) ∧ final ≤ p.length ∧
      ∀ v ∈ visits, Safe p v := by
  -- The cursor that one call leaves is within the packet, where the next one starts.
  induction calls generalizing nh with
  | nil => exact ⟨[], nh, rfl, rfl, rfl, by simp, h, by simp⟩
  | cons call calls ih =>
    obtain ⟨r, hr, hcases⟩ := call.parse_cases order p nh
    have hsafe := hcases.safe h
    obtain ⟨visits, final, hrun, hcalls, hchain, hsorted, hfinal, hall⟩ := ih r.1.pos hsafe.inside
    refine ⟨⟨call, nh, r⟩ :: visits, final, ?_, by rw [List.map_cons, hcalls], ?_, ?_, hfinal, ?_⟩
    · rw [runCalls, bind_run hr, bind_run hrun, pure_run]
    · rw [List.map_cons, List.map_cons, List.cons_append, hchain]
    · rw [List.map_cons, List.pairwise_cons]
      refine ⟨fun pos hpos ↦ ?_, hsorted⟩
      obtain rfl | hlater := List.mem_cons.mp hpos
      · exact hsafe.forward
      · exact hsafe.forward.trans (List.rel_of_pairwise_cons hsorted hlater)
    · intro v hv
      obtain rfl | hlater := List.mem_cons.mp hv
      · exact hsafe
      · exact hall v hlater

def taggedFrame : Frame := [2, 0, 0, 0, 0, 1, 2, 0, 0, 0, 0, 2, 0x81, 0, 0, 7, 8, 0, 69]

theorem parser_runs_safe_tagged :
    ∃ visits final, runCalls .little [.ethhdrVlan (some ⟨[0, 0], rfl⟩), .iphdr, .udphdr] 0
        taggedFrame = .ok ((visits, final), taggedFrame) ∧
      final ≤ taggedFrame.length ∧ ∀ v ∈ visits, Safe taggedFrame v := by
  obtain ⟨visits, final, hrun, _, _, _, hfinal, hall⟩ := parser_runs_safe .little
    [.ethhdrVlan (some ⟨[0, 0], rfl⟩), .iphdr, .udphdr] taggedFrame 0 (by decide)
  exact ⟨visits, final, hrun, hfinal, hall⟩

end Runs

/-- The caller's cursor, header pointer and ids are as before the call. -/
def Unchanged (call : Call vlanMaxDepth) (nh : ℕ) (hdr : Option ℕ) (r : Parsed × CollectVlans) :
    Prop :=
  r.1.pos = nh ∧ (r.1.hdr <|> hdr) = hdr ∧ r.2 = call.vlans

theorem failed_call_unchanged (order : ByteOrder) (call : Call vlanMaxDepth) (p : Frame) (nh : ℕ)
    (hdr : Option ℕ) :
    (∃ r, call.parse order nh p = .ok (r, p) ∧ (r.1.ret = -1 → Unchanged call nh hdr r)) ↔
      ¬ (call = .udphdr ∧ nh + 8 ≤ p.length ∧ netWord p (nh + 4) < 8) := by
  constructor
  · rintro ⟨r, hr, hkept⟩ ⟨rfl, hfit, hlen⟩
    have hrun : (Call.udphdr : Call vlanMaxDepth).parse order nh p = _ :=
      withoutVlans_run (parseUdphdr_run nh)
    rw [if_pos hfit, if_pos hlen, hr] at hrun
    obtain rfl : r = (⟨-1, nh + 8, some nh⟩, none) := by simpa using hrun
    have hpos : nh + 8 = nh := (hkept rfl).1
    omega
  · intro hlong
    obtain ⟨r, hr, hcases⟩ := call.parse_cases order p nh
    refine ⟨r, hr, fun hret ↦ ?_⟩
    cases hcases with
    | failed => exact ⟨rfl, rfl, rfl⟩
    | shortLength hcall hfit hlen => exact absurd ⟨hcall, hfit, hlen⟩ hlong
    | parsed hnonneg hsize hwhole hpos hids =>
      dsimp only at hret
      omega

def shortLengthHeader : Frame := [0x1F, 0x90, 0x23, 0x28, 0, 7, 0, 0]

theorem failed_call_moves_cursor :
    (Call.udphdr : Call 2).parse .little 0 shortLengthHeader =
      .ok ((⟨-1, 8, some 0⟩, none), shortLengthHeader) ∧
    ¬ Unchanged (Call.udphdr : Call 2) 0 none (⟨-1, 8, some 0⟩, none) :=
  ⟨by rfl, fun h ↦ absurd h.1 (by decide)⟩

end KernelBypass.Common.ParserRuns
