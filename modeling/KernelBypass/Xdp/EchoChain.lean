import KernelBypass.Libxdp.Packets
import KernelBypass.Xdp.IcmpEcho
import KernelBypass.Xdp.UdpEcho
import Mathlib.Data.List.Permutation

namespace KernelBypass.Xdp.EchoChain

open Foundation Buffer Access Linux Libxdp Common.CommonParams IcmpEcho UdpEcho

variable (order : ByteOrder) (csumDiff : CsumDiff)

def echoVerdict (p : Frame) : XdpAction × Frame :=
  if p.length < 42 then (.aborted, p)
  else if Answered p then (.tx, icmpReply order csumDiff p)
  else if cell p 23 = 17 then (.tx, udpReply p)
  else (.pass, p)

structure StandsFor (code : UInt32 → Linux.XdpProgram UInt32) (e : Entry)
    (program : Linux.XdpProgram XdpAction) : Prop where
  code : code e.id = actionCode <$> program
  actions : e.chainCallActions = xdpDefaultChainCallActions

variable {order csumDiff} {code : UInt32 → Linux.XdpProgram UInt32} {p q : Frame}

/-- By default the next program is run after `XDP_PASS` only. -/
theorem chained_default (a : XdpAction) :
    Bitmap.has (xdpDefaultChainCallActions ||| 1 <<< xdpDispatcherRetval) (actionCode a) =
      decide (a = .pass) := by
  rw [has_retval_or_actionCode]
  cases a <;> decide

theorem StandsFor.runChain_cons {e : Entry} {program : Linux.XdpProgram XdpAction}
    (he : StandsFor code e program) {a : XdpAction} (hrun : program p = .ok (a, q))
    (l : List (Component Linux.XdpProgram)) :
    runChain (Entry.component code e :: l) p =
      if a = .pass then runChain l q else .ok (actionCode a, q) := by
  have hcode : (Entry.component code e).run p = .ok (actionCode a, q) := by
    change code e.id p = _
    rw [he.code, map_eq_pure_bind, bind_run hrun]
    rfl
  have hchained : (Entry.component code e).chained (actionCode a) = decide (a = .pass) := by
    change Bitmap.has (e.chainCallActions ||| _) _ = _
    rw [he.actions, chained_default]
  rw [runChain, bind_run hcode, hchained]
  by_cases ha : a = .pass
  · rw [decide_eq_true ha, if_pos rfl, if_pos ha]
  · rw [decide_eq_false ha, if_neg Bool.false_ne_true, if_neg ha]
    rfl

/-- A program that passes a frame on as it is makes no difference to another one, before it or
behind it. -/
theorem runChain_pair {a b : Entry} {f g : Linux.XdpProgram XdpAction} {v : XdpAction}
    (ha : StandsFor code a f) (hb : StandsFor code b g) (hf : f p = .ok (.pass, p))
    (hg : g p = .ok (v, q)) (hv : v = .pass → q = p) {l : List Entry}
    (hl : l = [a, b] ∨ l = [b, a]) :
    runChain (l.map (Entry.component code)) p = .ok (actionCode v, q) := by
  have hlast : (if v = .pass then runChain ([] : List (Component Linux.XdpProgram)) q
      else .ok (actionCode v, q)) = (.ok (actionCode v, q) : Except Fault (UInt32 × Frame)) := by
    split_ifs with hpass
    · rw [hpass]
      rfl
    · rfl
  rcases hl with rfl | rfl
  · rw [List.map_cons, ha.runChain_cons hf, if_pos rfl, List.map_singleton, hb.runChain_cons hg, hlast]
  · rw [List.map_cons, hb.runChain_cons hg, List.map_singleton]
    by_cases hpass : v = .pass
    · rw [if_pos hpass, hv hpass, ha.runChain_cons hf, if_pos rfl, hpass]
      rfl
    · rw [if_neg hpass]

/-- No frame is for both programs. -/
theorem runChain_echo {a b : Entry} (ha : StandsFor code a (xdpIcmpEcho order csumDiff))
    (hb : StandsFor code b (xdpUdpEcho order)) {l : List Entry} (hl : l = [a, b] ∨ l = [b, a])
    (p : Frame) : runChain (l.map (Entry.component code)) p =
      .ok (actionCode (echoVerdict order csumDiff p).1, (echoVerdict order csumDiff p).2) := by
  have hicmp := xdpIcmpEcho_run order csumDiff p
  have hudp := xdpUdpEcho_run order p
  unfold echoVerdict
  by_cases hlen : p.length < 42
  · have hnot : ¬ Answered p := fun h ↦ by have := h.fits; omega
    rw [if_neg hnot] at hicmp
    rw [if_pos hlen] at hudp ⊢
    exact runChain_pair ha hb hicmp hudp (fun hv ↦ nomatch hv) hl
  · rw [if_neg hlen] at hudp ⊢
    by_cases hp : Answered p
    · have hproto : cell p 23 ≠ 17 := by
        have hone : cell p 23 = 1 := hp.icmp
        rw [hone]
        decide
      rw [if_pos hp] at hicmp ⊢
      rw [if_pos hproto] at hudp
      exact runChain_pair hb ha hudp hicmp (fun hv ↦ nomatch hv) hl.symm
    · rw [if_neg hp] at hicmp ⊢
      by_cases hproto : cell p 23 = 17
      · rw [if_neg (not_not.mpr hproto)] at hudp
        rw [if_pos hproto]
        exact runChain_pair ha hb hicmp hudp (fun hv ↦ nomatch hv) hl
      · rw [if_pos hproto] at hudp
        rw [if_neg hproto]
        exact runChain_pair ha hb hicmp hudp (fun _ ↦ rfl) hl

variable {κ : Type} [DecidableEq κ] {K : Kernel} {w : Host × (κ → Client)}
  {turns : List (Turn κ Event (Option (UInt32 × XdpAttachMode)))}

/-- An interface with both programs does the same in whichever order they have been attached
and run: it answers as each of them alone would, and drops what is too short for the one of
them that does not pass such frames on. -/
theorem echo_programs_chained {attached : Option (UInt32 × XdpAttachMode)} {id : UInt32}
    {a b : Entry} {l : List Entry} (hK : K.replaces = true)
    (hrun : Trace (Interleaved (Step order K) Foreign) turns (freshHost attached, fun _ ↦ .idle) w)
    (hcontent : w.1.content order = some ⟨id, some l⟩) (hl : l.Perm [a, b])
    (ha : StandsFor code a (xdpIcmpEcho order csumDiff)) (hb : StandsFor code b (xdpUdpEcho order))
    (p : Frame) : w.1.run order code p =
      .ok (actionCode (echoVerdict order csumDiff p).1, (echoVerdict order csumDiff p).2) := by
  have hw := (protocolOutline_stable hK).run hrun (protocolOutline_fresh attached)
  have hlen : l.length ≠ 1 := by
    rw [hl.length_eq]
    exact (by decide : 2 ≠ 1)
  rw [hw.shared.run_eq, hcontent, Option.elim_some, Attachment.run_of_length_ne_one hlen]
  exact runChain_echo ha hb (List.perm_pair.mp hl) p

def echoCode (id : UInt32) : Linux.XdpProgram UInt32 :=
  if id = 7 then actionCode <$> xdpIcmpEcho .little (plainCsumDiff .little)
  else actionCode <$> xdpUdpEcho .little

theorem attachable_echo : Attachable .little passKernel (freshHost none)
    [loadedProgram 8 (by decide), loadedProgram 7 (by decide)] .skb false :=
  attachable_fresh (List.cons_ne_nil _ _) (by simp [linkable_loadedProgram]) (by decide)

theorem echo_programs_chained_request : ∃ h : Host, ∀ p : Frame, h.run .little echoCode p =
    .ok (actionCode (echoVerdict .little (plainCsumDiff .little) p).1,
      (echoVerdict .little (plainCsumDiff .little) p).2) := by
  obtain ⟨rest, h, l, added, hrun, -, hcontent, hadded, hperm⟩ := attachable_echo.exists_run
  obtain ⟨b, _, hb, hrest, rfl⟩ := List.forall₂_cons_left_iff.mp hadded
  obtain ⟨a, _, ha, hnil, rfl⟩ := List.forall₂_cons_left_iff.mp hrest
  obtain rfl := List.forall₂_nil_left_iff.mp hnil
  have hid : a.id = 7 ∧ b.id = 8 := ⟨ha.kept _ rfl, hb.kept _ rfl⟩
  refine ⟨h, fun p ↦ echo_programs_chained rfl hrun hcontent (hperm.trans (.swap a b []))
    ⟨?_, ha.actions⟩ ⟨?_, hb.actions⟩ p⟩
  · rw [hid.1]
    rfl
  · rw [hid.2]
    rfl

end KernelBypass.Xdp.EchoChain
