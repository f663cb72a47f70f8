import KernelBypass.Libxdp.Attaching

namespace KernelBypass.Libxdp

open Common.CommonParams Common.MapFiles Foundation

/-- The steps that a call can still take in its round, if it is not made to retry. -/
def Pc.rank : Pc → ℕ
  | .done _ => 1
  | .unpinOld _ _ => 2
  | .unpinNew _ _ => 2
  | .attachSingle => 2
  | .attach _ _ _ => 3
  | .pin _ _ => 4
  | .generate _ => 5
  | .read n _ _ => 3 * (maxRetry + 1 - n) + 6
  | .getFd n _ _ => 3 * (maxRetry + 1 - n) + 7
  | .query n _ => 3 * (maxRetry + 1 - n) + 8

abbrev roundLength : ℕ := 42

def Call.stepsLeft (c : Call) : ℕ := roundLength * (maxRetry - c.retryCounter) + c.pc.rank

def Client.stepsLeft : Client → ℕ
  | .busy c => c.stepsLeft
  | _ => 0

variable {c : Call}

section Moves

theorem Pc.rank_pos (pc : Pc) : 0 < pc.rank := by
  cases pc <;> simp only [Pc.rank] <;> omega

theorem Pc.rank_lt (pc : Pc) : pc.rank < roundLength := by
  cases pc <;> simp only [Pc.rank, roundLength, maxRetry] <;> omega

theorem Call.stepsLeft_goto_lt {pc : Pc} (hpc : pc.rank < c.pc.rank) :
    (c.goto pc).stepsLeft < c.stepsLeft := Nat.add_lt_add_left hpc _

/-- A round that has failed is followed by one that is counted, or by the return. -/
theorem Call.stepsLeft_retryOr_lt (hpc : 1 < c.pc.rank) (err : ℤ) :
    (c.retryOr err).stepsLeft < c.stepsLeft := by
  unfold Call.retryOr
  split_ifs with _ hmax
  · exact stepsLeft_goto_lt hpc
  · have hlt : (Pc.query 0 0).rank < roundLength := Pc.rank_lt _
    have hsub : maxRetry - c.retryCounter = maxRetry - (c.retryCounter + 1) + 1 := by omega
    simp only [Call.stepsLeft, hsub, Nat.mul_succ]
    omega
  · exact stepsLeft_goto_lt hpc

theorem Call.stepsLeft_lookedUp_lt (hpc : 5 < c.pc.rank) (mp : Except ℤ XdpMultiprog) :
    (c.lookedUp mp).stepsLeft < c.stepsLeft := by
  have hgoto : ∀ pc : Pc, pc.rank ≤ 5 → (c.goto pc).stepsLeft < c.stepsLeft :=
    fun pc hle ↦ stepsLeft_goto_lt (hle.trans_lt hpc)
  unfold Call.lookedUp
  split
  · split_ifs <;> exact hgoto _ (by simp [Pc.rank])
  · split
    · exact hgoto _ (by simp [Pc.rank])
    · split
      · exact stepsLeft_retryOr_lt (by omega) _
      · exact hgoto _ (by simp [Pc.rank])
      · exact hgoto _ (by simp [Pc.rank])
  · split
    · exact hgoto _ (by simp [Pc.rank])
    · split_ifs <;> exact hgoto _ (by simp [Pc.rank])

theorem Call.stepsLeft_fromId_lt {n : ℕ} (hpc : 3 * (maxRetry + 1 - n) + 5 < c.pc.rank)
    (progId : UInt32) (mp : Except ℤ XdpMultiprog) :
    (c.fromId n progId mp).stepsLeft < c.stepsLeft := by
  have hlookedUp : ∀ mp, (c.lookedUp mp).stepsLeft < c.stepsLeft :=
    stepsLeft_lookedUp_lt (by omega)
  unfold Call.fromId
  split
  · exact hlookedUp _
  · split_ifs with _ hmax
    · exact hlookedUp _
    · have hnext : (Pc.query (n + 1) progId).rank = 3 * (maxRetry + 1 - (n + 1)) + 8 := rfl
      exact stepsLeft_goto_lt (by omega)
    · exact hlookedUp _

theorem Call.stepsLeft_queried_lt {n : ℕ} {progId : UInt32} (hpc : c.pc = .query n progId)
    (a : Option (UInt32 × XdpAttachMode)) : (c.queried n progId a).stepsLeft < c.stepsLeft := by
  unfold Call.queried
  dsimp only
  split_ifs
  · exact stepsLeft_lookedUp_lt (by rw [hpc, Pc.rank]; omega) _
  · exact stepsLeft_goto_lt (by rw [hpc, Pc.rank, Pc.rank]; omega)

theorem Call.stepsLeft_generateFailed_lt (hpc : 2 < c.pc.rank) (err : ℤ) :
    (c.generateFailed err).stepsLeft < c.stepsLeft := by
  unfold Call.generateFailed
  split
  · split_ifs
    · exact stepsLeft_goto_lt hpc
    · exact stepsLeft_goto_lt (Nat.lt_of_succ_lt hpc)
  · exact stepsLeft_retryOr_lt (Nat.lt_of_succ_lt hpc) err

theorem Call.stepsLeft_pinFailed_lt (hpc : 1 < c.pc.rank) (err : ℤ) :
    (c.pinFailed err).stepsLeft < c.stepsLeft := by
  unfold Call.pinFailed
  split
  · exact stepsLeft_goto_lt hpc
  · exact stepsLeft_retryOr_lt hpc err

theorem Call.stepsLeft_attachFailed_lt (hpc : 2 < c.pc.rank) (new : Option UInt32) (err : ℤ) :
    (c.attachFailed new err).stepsLeft < c.stepsLeft := by
  unfold Call.attachFailed
  split
  · exact stepsLeft_goto_lt (Nat.lt_of_succ_lt hpc)
  · exact stepsLeft_goto_lt hpc
  · exact stepsLeft_retryOr_lt (Nat.lt_of_succ_lt hpc) err

theorem Call.stepsLeft_attached_lt (hpc : 2 < c.pc.rank) (oldMp : Option XdpMultiprog)
    (new : Option UInt32) : (c.attached oldMp new).stepsLeft < c.stepsLeft := by
  unfold Call.attached
  dsimp only
  split
  · exact Nat.add_lt_add_left (Nat.lt_of_succ_lt hpc) _
  · split_ifs
    · exact Nat.add_lt_add_left (Nat.lt_of_succ_lt hpc) _
    · exact Nat.add_lt_add_left hpc _

theorem Call.stepsLeft_unpinnedOld_lt (hpc : 1 < c.pc.rank) (replaced : Bool) (err : ℤ) :
    (c.unpinnedOld replaced err).stepsLeft < c.stepsLeft := by
  unfold Call.unpinnedOld
  split_ifs
  · exact stepsLeft_goto_lt hpc
  · split
    · exact stepsLeft_goto_lt hpc
    · exact stepsLeft_retryOr_lt hpc err

end Moves

variable {order : ByteOrder} {K : Kernel}

theorem Client.stepsLeft_lt_of_busy : 0 < (Client.busy c).stepsLeft :=
  Nat.add_pos_right _ c.pc.rank_pos

/-- Every step of a call brings it nearer to its return, whatever others have done. -/
theorem Step.stepsLeft_lt {e : Event} {h h' : Host} {l l' : Client} (he : ∀ r, e ≠ .called r)
    (hstep : Step order K e (h, l) (h', l')) : l'.stepsLeft < l.stepsLeft := by
  cases hstep with
  | called => exact absurd rfl (he _)
  | queryFailed hpc => exact Call.stepsLeft_lookedUp_lt (by rw [hpc, Pc.rank]; omega) _
  | queried hpc => exact Call.stepsLeft_queried_lt hpc _
  | getFdFailed hpc => exact Call.stepsLeft_fromId_lt (by rw [hpc, Pc.rank]; omega) _ _
  | gotFd hpc => exact Call.stepsLeft_goto_lt (by rw [hpc, Pc.rank, Pc.rank]; omega)
  | read hpc => exact Call.stepsLeft_fromId_lt (by rw [hpc, Pc.rank]; omega) _ _
  | readImpaired hpc => exact Call.stepsLeft_fromId_lt (by rw [hpc, Pc.rank]; omega) _ _
  | generateFailed hpc => exact Call.stepsLeft_generateFailed_lt (by simp [hpc, Pc.rank]) _
  | generateFault => exact Client.stepsLeft_lt_of_busy
  | generated hpc => exact Nat.add_lt_add_left (by simp [hpc, Pc.rank]) _
  | pinFailed hpc => exact Call.stepsLeft_pinFailed_lt (by simp [hpc, Pc.rank]) _
  | pinImpaired hpc => exact Call.stepsLeft_pinFailed_lt (by simp [hpc, Pc.rank]) _
  | pinned hpc => exact Call.stepsLeft_goto_lt (by simp [hpc, Pc.rank])
  | attachInvalid hpc => exact Call.stepsLeft_attachFailed_lt (by simp [hpc, Pc.rank]) _ _
  | attachFailed hpc => exact Call.stepsLeft_attachFailed_lt (by simp [hpc, Pc.rank]) _ _
  | attached hpc => exact Call.stepsLeft_attached_lt (by simp [hpc, Pc.rank]) _ _
  | unpinnedNew hpc => exact Call.stepsLeft_retryOr_lt (by simp [hpc, Pc.rank]) _
  | unpinNewImpaired hpc => exact Call.stepsLeft_retryOr_lt (by simp [hpc, Pc.rank]) _
  | unpinnedOld hpc => exact Call.stepsLeft_unpinnedOld_lt (by simp [hpc, Pc.rank]) _ _
  | unpinOldImpaired hpc => exact Call.stepsLeft_unpinnedOld_lt (by simp [hpc, Pc.rank]) _ _
  | singleFailed hpc => exact Call.stepsLeft_goto_lt (by simp [hpc, Pc.rank])
  | single hpc => exact Nat.add_lt_add_left (by simp [hpc, Pc.rank]) _
  | returned => exact Client.stepsLeft_lt_of_busy
  | died => exact Client.stepsLeft_lt_of_busy
  | diedPinning => exact Client.stepsLeft_lt_of_busy
  | diedUnpinning => exact Client.stepsLeft_lt_of_busy

theorem Client.stepsLeft_lt (l : Client) : l.stepsLeft < roundLength * (maxRetry + 1) := by
  cases l with
  | idle => decide
  | busy c =>
    have hrank := c.pc.rank_lt
    have hround : maxRetry - c.retryCounter ≤ maxRetry := Nat.sub_le ..
    simp only [Client.stepsLeft, Call.stepsLeft, roundLength, maxRetry] at hrank hround ⊢
    omega
  | dead => decide

variable {κ : Type} [DecidableEq κ] {k : κ}
  {turns : List (Turn κ Event (Option (UInt32 × XdpAttachMode)))} {w w' : Host × (κ → Client)}

/-- No call takes more than 461 steps, however often it finds that others have been faster. -/
theorem call_steps_bounded (hrun : Trace (Interleaved (Step order K) Foreign) turns w w')
    (hcalls : ∀ r, .party k (.called r) ∉ turns) : turns.countP (Turn.isOf k) ≤ 461 := by
  have hle := hrun.countP_isOf_le (P := fun e ↦ ∀ r, e ≠ .called r) Client.stepsLeft
    (fun _ _ _ _ _ he hstep ↦ hstep.stepsLeft_lt he) fun e he r heq ↦ hcalls r (heq ▸ he)
  have hlt : (w.2 k).stepsLeft < 462 := (w.2 k).stepsLeft_lt
  omega

theorem call_steps_bounded_two : ∃ turns w w',
    Trace (Interleaved (κ := Unit) (Step .little passKernel) Foreign) turns w w' ∧
      w.2 () = .busy (.start (.attachMulti twoPrograms .skb false)) ∧ w'.2 () = .idle ∧
      turns.countP (Turn.isOf ()) ≤ 461 := by
  obtain ⟨rest, h, l, added, hrun, hrest, -⟩ := attachable_twoPrograms.exists_run
  cases hrun with
  | cons hstep hrun =>
    refine ⟨rest, _, _, hrun, ?_, rfl, call_steps_bounded hrun fun r hr ↦ ?_⟩
    · cases hstep with
      | party k hstep =>
        cases hstep
        rfl
    · rcases hrest _ hr with hr | hr <;> cases hr

end KernelBypass.Libxdp
