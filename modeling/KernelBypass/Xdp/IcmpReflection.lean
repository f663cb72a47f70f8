import KernelBypass.Foundation.Reflection
import KernelBypass.Xdp.IcmpEcho

namespace KernelBypass.Xdp.IcmpReflection

open Foundation Buffer Reflection Linux Readdress IcmpEcho

/-- A host runs the program in its own byte order, and its kernel's helper returns
whatever it likes. -/
structure Host where
  order : ByteOrder
  csumDiff : CsumDiff

def Host.echo (host : Host) : XdpProgram XdpAction := xdpIcmpEcho host.order host.csumDiff

theorem not_answered_replyWith {order : ByteOrder} {p : Frame} (h : Answered p) (v : UInt16) :
    ¬ Answered (replyWith order v p) := by
  intro hq
  have hecho := hq.echo
  rw [h.l4Offset_replyWith, h.cell_replyWith, if_neg (by omega), if_pos rfl] at hecho
  exact absurd hecho (by decide)

theorem echo_passes_reply (host host' : Host) {p q : Frame} (h : host.echo p = .ok (.tx, q)) :
    host'.echo q = .ok (.pass, q) := by
  obtain ⟨hp, rfl⟩ := (xdpIcmpEcho_tx_iff host.order host.csumDiff p q).mp h
  have hq : ¬ Answered (icmpReply host.order host.csumDiff p) := not_answered_replyWith hp _
  rw [Host.echo, xdpIcmpEcho_run, if_neg hq]

/-- No reply is answered, so between any number of hosts a frame is reflected at
most once. -/
theorem icmp_echo_never_loops :
    (∀ (host host' : Host) (p q : Frame), host.echo p = .ok (.tx, q) →
      host'.echo q = .ok (.pass, q)) ∧
    ∀ (hosts : List Host) (p : Frame),
      reflections (fun host ↦ transmit host.echo) hosts p ≤ 1 := by
  refine ⟨fun host host' p q h ↦ echo_passes_reply host host' h, fun hosts p ↦ ?_⟩
  refine reflections_le_one (fun host p q h host' ↦ ?_) hosts p
  rw [transmit, echo_passes_reply host host' (transmit_eq_some_iff.mp h)]

theorem icmp_echo_never_loops_request :
    Host.echo ⟨.big, plainCsumDiff .big⟩ (icmpReply .little (plainCsumDiff .little) icmpRequest) =
      .ok (.pass, icmpReply .little (plainCsumDiff .little) icmpRequest) := by
  refine icmp_echo_never_loops.1 ⟨.little, plainCsumDiff .little⟩ _ icmpRequest _ ?_
  exact (xdpIcmpEcho_tx_iff .little (plainCsumDiff .little) icmpRequest _).mpr ⟨by decide, rfl⟩

end KernelBypass.Xdp.IcmpReflection
