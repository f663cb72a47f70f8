import KernelBypass.Foundation.Trace
import KernelBypass.Common.HeaderEncoding
import KernelBypass.Common.RewriteHelpers

namespace KernelBypass.Common.VlanStack

open Foundation Buffer Access Linux ParsingHelpers HeaderEncoding RewriteHelpers

def readTpid (a b : UInt8) : Option Tpid :=
  if a = 0x81 ∧ b = 0x00 then some .dot1Q else if a = 0x88 ∧ b = 0xA8 then some .dot1AD else none

/-- The tags at the head of a list of bytes, each wholly inside it, and the bytes from
the first type field that is not a tag's. -/
def readTags : List UInt8 → List VlanTag × List UInt8
  | a :: b :: c :: d :: e :: f :: l =>
    match readTpid a b with
    | some tpid =>
      (⟨tpid, ByteOrder.big.word16 c d⟩ :: (readTags (e :: f :: l)).1, (readTags (e :: f :: l)).2)
    | none => ([], a :: b :: c :: d :: e :: f :: l)
  | l => ([], l)

section View

variable (p : Frame)

def macs : List UInt8 := p.take 12

def tags : List VlanTag := (readTags (p.drop 12)).1

def inner : List UInt8 := (readTags (p.drop 12)).2

end View

theorem readTpid_encode {a b : UInt8} {tpid : Tpid} (h : readTpid a b = some tpid) :
    be16 tpid.value = [a, b] := by
  unfold readTpid at h
  split_ifs at h with hq had
  · obtain ⟨rfl, rfl⟩ := hq
    cases h
    rfl
  · obtain ⟨rfl, rfl⟩ := had
    cases h
    rfl

theorem readTags_encode (l : List UInt8) :
    (readTags l).1.flatMap VlanTag.encode ++ (readTags l).2 = l := by
  fun_induction readTags l with
  | case1 a b c d e f l tpid htpid ih =>
    rw [List.flatMap_cons, List.append_assoc, ih, VlanTag.encode, readTpid_encode htpid, be16,
      ByteOrder.bytes16_word16]
    rfl
  | case2 => rfl
  | case3 => rfl

theorem frame_ext {p q : Frame} (hmacs : macs q = macs p) (htags : tags q = tags p)
    (hinner : inner q = inner p) : q = p := by
  rw [← List.take_append_drop 12 q, ← List.take_append_drop 12 p, ← readTags_encode (q.drop 12),
    ← readTags_encode (p.drop 12)]
  exact congrArg₂ _ hmacs (congrArg₂ _ (congrArg _ htags) hinner)

section Step

variable {order : ByteOrder} {p : Frame}

theorem protoIsVlan_iff (a b : UInt8) :
    protoIsVlan order (order.word16 a b) = true ↔ (readTpid a b).isSome := by
  have hq : bpfHtons order ethP8021Q = order.word16 0x81 0x00 := order.word16_eq_toBig16 0x81 0x00
  have had : bpfHtons order ethP8021AD = order.word16 0x88 0xA8 := order.word16_eq_toBig16 0x88 0xA8
  have hinj (c d : UInt8) : order.word16 a b = order.word16 c d ↔ a = c ∧ b = d :=
    ⟨order.word16_injective, fun ⟨hc, hd⟩ ↦ by rw [hc, hd]⟩
  rw [protoIsVlan, hq, had, Bool.or_eq_true, beq_iff_eq, beq_iff_eq, hinj, hinj, readTpid]
  split_ifs <;> simp [*]

theorem macs_append (h : 12 ≤ p.length) (l : List UInt8) : macs (p.take 12 ++ l) = macs p :=
  List.take_left' (by rw [List.length_take]; omega)

theorem drop_macs_append (h : 12 ≤ p.length) (l : List UInt8) : (p.take 12 ++ l).drop 12 = l :=
  List.drop_left' (by rw [List.length_take]; omega)

theorem readTags_pushed (h : 14 ≤ p.length) (tci : UInt16) :
    readTags ((pushed tci p).drop 12) = (⟨.dot1Q, tci⟩ :: tags p, inner p) := by
  have htci : ByteOrder.big.word16 (UInt8.ofNat (tci.toNat / 256)) (UInt8.ofNat (tci.toNat % 256)) =
      tci := ByteOrder.big.word16_high_low tci
  have hdrop : p.drop 12 = cell p 12 :: cell p 13 :: p.drop 14 := by
    rw [drop_eq_cell_cons (by omega), drop_eq_cell_cons (by omega)]
  rw [pushed, drop_macs_append (by omega), tags, inner, hdrop]
  change ((⟨.dot1Q, ByteOrder.big.word16 (UInt8.ofNat (tci.toNat / 256))
    (UInt8.ofNat (tci.toNat % 256))⟩ :: _, _) : List VlanTag × List UInt8) = _
  rw [htci]

/-- A tag that the parser would skip is the next tag. -/
theorem readTags_of_tagAt {t : ℕ} (htag : TagAt order p t) :
    ∃ tpid, readTags (p.drop t) =
      (⟨tpid, bpfNtohs order (wordAt order p (t + 2))⟩ :: (readTags (p.drop (t + 4))).1,
        (readTags (p.drop (t + 4))).2) := by
  have hin := htag.2
  obtain ⟨tpid, htpid⟩ := Option.isSome_iff_exists.mp ((protoIsVlan_iff _ _).mp htag.1)
  have htci : bpfNtohs order (wordAt order p (t + 2)) =
      ByteOrder.big.word16 (cell p (t + 2)) (cell p (t + 3)) := by
    apply UInt16.toNat_inj.mp
    rw [bpfNtohs, wordAt, ByteOrder.toNat_toBig16_word16, ByteOrder.toNat_word16]
  have hdrop : p.drop t =
      cell p t :: cell p (t + 1) :: cell p (t + 2) :: cell p (t + 3) :: p.drop (t + 4) := by
    rw [drop_eq_cell_cons (by omega), drop_eq_cell_cons (by omega), drop_eq_cell_cons (by omega),
      drop_eq_cell_cons (by omega)]
  have hdrop' : p.drop (t + 4) = cell p (t + 4) :: cell p (t + 5) :: p.drop (t + 6) := by
    rw [drop_eq_cell_cons (by omega), drop_eq_cell_cons (by omega)]
  exact ⟨tpid, by rw [hdrop, hdrop', readTags, htpid, htci]⟩

theorem readTags_of_not_tagAt {t : ℕ} (htag : ¬ TagAt order p t) :
    (readTags (p.drop t)).1 = [] := by
  generalize hl : p.drop t = l
  fun_cases readTags l with
  | case1 a b c d e f l tpid htpid =>
    have hcell (j : ℕ) : cell p (t + j) = cell (a :: b :: c :: d :: e :: f :: l) j := by
      rw [← hl, cell_drop]
    have hlen := congrArg List.length hl
    rw [List.length_drop] at hlen
    simp only [List.length_cons] at hlen
    refine absurd ⟨?_, by omega⟩ htag
    have hfirst : cell p t = a := hcell 0
    have hsecond : cell p (t + 1) = b := hcell 1
    rw [wordAt, protoIsVlan_iff, hfirst, hsecond, htpid]
    rfl
  | case2 => rfl
  | case3 => rfl

/-- The parser collects the ids of the tags on top, as many as it may skip. -/
theorem skippedIds_eq_readTags (n t : ℕ) : skippedIds order p n t =
    ((readTags (p.drop t)).1.take n).map (·.tci &&& vlanVidMask) := by
  induction n generalizing t with
  | zero => rfl
  | succ n ih =>
    rw [skippedIds]
    split_ifs with htag
    · obtain ⟨tpid, hread⟩ := readTags_of_tagAt htag
      rw [hread, ih, List.take_succ_cons, List.map_cons]
      rfl
    · rw [readTags_of_not_tagAt htag]
      rfl

theorem readTags_popped (htag : TagAt order p 12) :
    ∃ tpid, tags p = ⟨tpid, bpfNtohs order (wordAt order p 14)⟩ :: tags (popped p) ∧
      inner p = inner (popped p) := by
  have hin := htag.2
  obtain ⟨tpid, hread⟩ := readTags_of_tagAt htag
  refine ⟨tpid, ?_, ?_⟩
  · rw [tags, tags, popped, drop_macs_append (by omega), hread]
  · rw [inner, inner, popped, drop_macs_append (by omega), hread]

end Step

inductive Op
  | push (vlid : Int32)
  | pop

structure Call where
  op : Op
  adjustHead : AdjustHead

def Call.run (order : ByteOrder) (c : Call) : XdpProgram ℤ :=
  match c.op with
  | .push vlid => vlanTagPush order c.adjustHead 0 vlid
  | .pop => vlanTagPop order c.adjustHead 0

def runCalls (order : ByteOrder) : List Call → XdpProgram (List ℤ)
  | [] => return []
  | c :: calls => do
    let ret ← c.run order
    let rets ← runCalls order calls
    return ret :: rets

def shownTci (tag : VlanTag) : ℤ := tag.tci.toNat

/-- The operation on the stack of tags that a call and its return value stand for. -/
def event (op : Op) (ret : ℤ) : Stack.Event VlanTag ℤ :=
  if ret < 0 then .refused
  else match op with
    | .push vlid => .pushed ⟨.dot1Q, vlid.toUInt32.toUInt16⟩
    | .pop => .popped ret

def PushReturnsZero (op : Op) (ret : ℤ) : Prop := ∀ vlid, op = .push vlid → 0 ≤ ret → ret = 0

/-- What no call changes: the MAC addresses, the inner type and the bytes behind it. -/
structure SameBase (p q : Frame) : Prop where
  macs : macs q = macs p
  inner : inner q = inner p

section Runs

variable {order : ByteOrder} {p : Frame}

theorem Call.step (order : ByteOrder) {c : Call} (hc : AdjustHeadContract c.adjustHead)
    (h : 14 ≤ p.length) :
    ∃ ret q, c.run order p = .ok (ret, q) ∧ 14 ≤ q.length ∧
      Stack.Step shownTci (event c.op ret) (tags p) (tags q) ∧ SameBase p q ∧
      PushReturnsZero c.op ret := by
  obtain ⟨op, adjustHead⟩ := c
  cases op with
  | push vlid =>
    obtain ⟨ret, q, hrun, ⟨rfl, rfl⟩ | ⟨rfl, rfl⟩⟩ : ∃ ret q, vlanTagPush order _ 0 vlid p = _ ∧ _ :=
      vlanTagPush_run hc h vlid
    · exact ⟨-1, q, hrun, h, .refused _, ⟨rfl, rfl⟩, fun _ _ hneg ↦ absurd hneg (by decide)⟩
    · have hlen := length_pushed (p := p) (by omega) vlid.toUInt32.toUInt16
      have hread := readTags_pushed h vlid.toUInt32.toUInt16
      have htags : tags (pushed vlid.toUInt32.toUInt16 p) =
          ⟨.dot1Q, vlid.toUInt32.toUInt16⟩ :: tags p := by rw [tags, hread]
      refine ⟨0, _, hrun, by omega, ?_, ⟨macs_append (by omega) _, by rw [inner, hread]⟩,
        fun _ _ _ ↦ rfl⟩
      rw [htags]
      exact .pushed _ _
  | pop =>
    obtain ⟨ret, q, hrun, ⟨rfl, rfl⟩ | ⟨htag, rfl, rfl⟩⟩ : ∃ ret q, vlanTagPop order _ 0 p = _ ∧ _ :=
      vlanTagPop_run hc h
    · exact ⟨-1, q, hrun, h, .refused _, ⟨rfl, rfl⟩, fun _ hpush ↦ by cases hpush⟩
    · have hin := htag.2
      have hlen := length_popped (p := p) (by omega)
      obtain ⟨tpid, htags, hinner⟩ := readTags_popped htag
      refine ⟨_, _, hrun, by omega, ?_, ⟨macs_append (by omega) _, hinner.symm⟩,
        fun _ hpush ↦ by cases hpush⟩
      rw [htags, event, if_neg (Int.not_lt.mpr (Int.natCast_nonneg _))]
      exact .popped (⟨tpid, bpfNtohs order (wordAt order p 14)⟩ : VlanTag) _

/-- Every sequence of calls returns, and is a run of a stack of tags on an unchanged
base. -/
theorem runCalls_trace (order : ByteOrder) {calls : List Call}
    (hc : ∀ c ∈ calls, AdjustHeadContract c.adjustHead) (h : 14 ≤ p.length) :
    ∃ rets q, runCalls order calls p = .ok (rets, q) ∧ 14 ≤ q.length ∧
      Trace (Stack.Step shownTci) (List.zipWith event (calls.map Call.op) rets) (tags p) (tags q) ∧
      SameBase p q ∧
      List.Forall₂ PushReturnsZero (calls.map Call.op) rets := by
  induction calls generalizing p with
  | nil => exact ⟨[], p, rfl, h, .nil _, ⟨rfl, rfl⟩, .nil⟩
  | cons c calls ih =>
    obtain ⟨ret, q, hrun, hq, hstep, hbase, hret⟩ := Call.step order (hc c List.mem_cons_self) h
    obtain ⟨rets, r, hruns, hr, htrace, hbase', hrets⟩ :=
      ih (fun c' hc' ↦ hc c' (List.mem_cons_of_mem c hc')) hq
    refine ⟨ret :: rets, r, ?_, hr, .cons hstep htrace,
      ⟨hbase'.macs.trans hbase.macs, hbase'.inner.trans hbase.inner⟩, .cons hret hrets⟩
    rw [runCalls, bind_run hrun, bind_run hruns, pure_run]

theorem toNat_toUInt16 (vlid : Int32) : (vlid.toUInt32.toUInt16.toNat : ℤ) = vlid.toInt % 65536 := by
  have hlt := vlid.toUInt32.toNat_lt
  have hint : vlid.toInt = if 2 * vlid.toUInt32.toNat < 2 ^ 32 then (vlid.toUInt32.toNat : ℤ)
      else (vlid.toUInt32.toNat : ℤ) - 2 ^ 32 := BitVec.toInt_eq_toNat_cond vlid.toBitVec
  rw [UInt32.toNat_toUInt16, hint]
  split_ifs <;> omega

theorem zipWith_event_push {vlids : List Int32} {rets : List ℤ}
    (h : List.Forall₂ PushReturnsZero (vlids.map .push) rets) (hret : ∀ ret ∈ rets, 0 ≤ ret) :
    rets = List.replicate vlids.length 0 ∧ List.zipWith event (vlids.map .push) rets =
      (vlids.map fun vlid ↦ (⟨.dot1Q, vlid.toUInt32.toUInt16⟩ : VlanTag)).map .pushed := by
  induction vlids generalizing rets with
  | nil =>
    cases h
    exact ⟨rfl, rfl⟩
  | cons vlid vlids ih =>
    cases h with
    | @cons _ ret _ rets hzero h =>
      obtain rfl : ret = 0 := hzero vlid rfl (hret ret List.mem_cons_self)
      obtain ⟨rfl, hevents⟩ := ih h fun r hr ↦ hret r (List.mem_cons_of_mem _ hr)
      exact ⟨rfl, congrArg _ hevents⟩

theorem zipWith_event_pop {rets : List ℤ} (hret : ∀ ret ∈ rets, 0 ≤ ret) :
    List.zipWith event (List.replicate rets.length .pop) rets = rets.map .popped := by
  induction rets with
  | nil => rfl
  | cons ret rets ih =>
    have hhead : event .pop ret = .popped ret := if_neg (Int.not_lt.mpr (hret ret List.mem_cons_self))
    rw [List.length_cons, List.replicate_succ, List.zipWith_cons_cons, hhead,
      ih fun r hr ↦ hret r (List.mem_cons_of_mem _ hr), List.map_cons]

end Runs

/-- Calls of `vlan_tag_push` and `vlan_tag_pop` are a stack of tags; as many successful
pops as pushes return what was pushed and restore the frame. -/
theorem vlan_tags_form_a_stack (order : ByteOrder) (calls : List Call)
    (hc : ∀ c ∈ calls, AdjustHeadContract c.adjustHead) (p : Frame) (h : 14 ≤ p.length) :
    ∃ rets q, runCalls order calls p = .ok (rets, q) ∧
      Trace (Stack.Step shownTci) (List.zipWith event (calls.map Call.op) rets) (tags p) (tags q) ∧
      List.Forall₂ PushReturnsZero (calls.map Call.op) rets ∧ SameBase p q ∧
      ∀ vlids : List Int32,
        calls.map Call.op = vlids.map .push ++ List.replicate vlids.length .pop →
        (∀ ret ∈ rets, 0 ≤ ret) →
        rets = List.replicate vlids.length 0 ++ (vlids.map (·.toInt % 65536)).reverse ∧ q = p := by
  obtain ⟨rets, q, hrun, _, htrace, hbase, hzero⟩ := runCalls_trace order hc h
  refine ⟨rets, q, hrun, htrace, hzero, hbase, fun vlids hcalls hret ↦ ?_⟩
  rw [hcalls] at htrace hzero
  have hlen := hzero.length_eq
  rw [List.length_append, List.length_map, List.length_replicate] at hlen
  obtain ⟨pushes, pops, rfl, hpushes⟩ : ∃ pushes pops, rets = pushes ++ pops ∧
      pushes.length = vlids.length :=
    ⟨rets.take vlids.length, rets.drop vlids.length, (List.take_append_drop _ _).symm, by
      rw [List.length_take]
      omega⟩
  have hpops : pops.length = vlids.length := by
    rw [List.length_append] at hlen
    omega
  have hpush := List.forall₂_take vlids.length hzero
  rw [List.take_left' (List.length_map _), List.take_left' hpushes] at hpush
  obtain ⟨rfl, hevents⟩ := zipWith_event_push hpush fun ret hr ↦ hret ret (List.mem_append_left _ hr)
  rw [List.zipWith_append (by rw [List.length_map, hpushes]), hevents, ← hpops,
    zipWith_event_pop fun ret hr ↦ hret ret (List.mem_append_right _ hr)] at htrace
  obtain ⟨rfl, htags⟩ := Stack.trace_pushed_popped (by rw [hpops, List.length_map]) htrace
  refine ⟨?_, frame_ext hbase.macs htags hbase.inner⟩
  rw [List.map_map]
  exact congrArg (fun l ↦ _ ++ List.reverse l)
    (List.map_congr_left fun vlid _ ↦ toNat_toUInt16 vlid)

def untaggedFrame : Frame := [2, 0, 0, 0, 0, 1, 2, 0, 0, 0, 0, 2, 8, 0, 69]

def pushPop : List Call :=
  [⟨.push 5, plainAdjustHead [7, 7, 7, 7]⟩, ⟨.push (-1), plainAdjustHead [7, 7, 7, 7]⟩,
    ⟨.pop, plainAdjustHead []⟩, ⟨.pop, plainAdjustHead []⟩]

theorem vlan_tags_form_a_stack_untagged :
    ∃ rets q, runCalls .little pushPop untaggedFrame = .ok (rets, q) ∧ rets = [0, 0, 65535, 5] ∧
      q = untaggedFrame := by
  have hrun : runCalls .little pushPop untaggedFrame = .ok ([0, 0, 65535, 5], untaggedFrame) := by rfl
  obtain ⟨rets, q, hrun', _, _, _, hpair⟩ := vlan_tags_form_a_stack .little pushPop
    (by simp [pushPop, plainAdjustHead_contract]) untaggedFrame (by decide)
  obtain ⟨rfl, rfl⟩ : [0, 0, 65535, 5] = rets ∧ untaggedFrame = q := by
    simpa using hrun.symm.trans hrun'
  obtain ⟨hrets, hq⟩ := hpair [5, -1] rfl (by decide)
  exact ⟨_, _, hrun', hrets, hq⟩

end KernelBypass.Common.VlanStack
