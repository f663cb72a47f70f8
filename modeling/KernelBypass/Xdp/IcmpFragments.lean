import KernelBypass.Linux.Fragments
import KernelBypass.Xdp.IcmpChecksum

namespace KernelBypass.Xdp.IcmpFragments

open Foundation Buffer Fragmentation Linux Readdress IcmpEcho IcmpChecksum

@[mk_iff]
structure IsEchoRequest (key : DatagramKey) (message : List UInt8) : Prop where
  icmp : key.protocol = 1
  header : 8 ≤ message.length
  type : cell message 0 = 8

instance (key : DatagramKey) (message : List UInt8) : Decidable (IsEchoRequest key message) :=
  decidable_of_iff' _ (isEchoRequest_iff key message)

structure IsEchoReply (request reply : List UInt8) : Prop where
  length : reply.length = request.length
  type : cell reply 0 = 0
  code : cell reply 1 = cell request 1
  rest : reply.drop 4 = request.drop 4

variable (order : ByteOrder) (csumDiff : CsumDiff)

/-- All fragments are passed, or all are transmitted and make up the reply. -/
def AnsweredWhole (key : DatagramKey) (frames : List Frame) (message : List UInt8) : Prop :=
  (∀ p ∈ frames, xdpIcmpEcho order csumDiff p = .ok (.pass, p)) ∨
  ∃ replies reply,
    List.Forall₂ (fun p q ↦ xdpIcmpEcho order csumDiff p = .ok (.tx, q)) frames replies ∧
    Carries key.reversed replies reply ∧ IsEchoReply message reply

def LooksLikeRequest (p : Frame) : Prop := l4Offset p + 8 ≤ p.length ∧ cell p (l4Offset p) = 8

variable {order csumDiff} {key : DatagramKey} {frames : List Frame} {message : List UInt8}
  {p : Frame}

theorem answered_iff_looksLikeRequest (hp : IpPacket p) (hicmp : protocol p = 1) :
    Answered p ↔ LooksLikeRequest p := by
  have hihl := hp.header
  have hoff : l4Offset p = 14 + 4 * ihl p := rfl
  constructor
  · intro h
    exact ⟨h.fitsIcmp, h.echo⟩
  · rintro ⟨hfit, hecho⟩
    exact ⟨by omega, hp.ipv4, hicmp, hfit, hecho⟩

theorem first_looksLikeRequest (h : Carries key frames message) (hreq : IsEchoRequest key message)
    (hp : p ∈ frames) (hfirst : (fragmentOf p).offset = 0) : LooksLikeRequest p := by
  have hpacket := h.packets p hp
  have hlen := h.first_length hreq.header hp hfirst
  have htype := h.cell_message hp (k := 0) (by omega)
  rw [hfirst, hpacket.cell_l4Message (by omega)] at htype
  have hin := hpacket.inside
  have hcov := hpacket.covered
  have hoff : l4Offset p = 14 + 4 * ihl p := rfl
  rw [hpacket.length_l4Message] at hlen
  exact ⟨by omega, htype.symm.trans hreq.type⟩

theorem icmpReply_returned (h : Answered p) (hp : IpPacket p) :
    Returned p (icmpReply order csumDiff p) := by
  have hfit := h.fits
  have headers : HeadersAnswered p (icmpReply order csumDiff p) := h.headersAnswered hp.header _
  refine ⟨h.length_replyWith _, fun j hj ↦ ?_, headers.saddr, headers.daddr⟩
  rw [icmpReply, h.cell_replyWith_of_header hp.header _ (by omega),
    cell_readdress_of_fixed (by omega) (by omega)]

theorem cell_icmpReply_first (h : Answered p) (hp : IpPacket p) (hne : l4Message p ≠ []) :
    cell (l4Message (icmpReply order csumDiff p)) 0 = 0 := by
  have hret : Returned p (icmpReply order csumDiff p) := icmpReply_returned h hp
  have hq := hret.packet hp
  have hpos : 0 < (l4Message (icmpReply order csumDiff p)).length := by
    rw [hq.length_l4Message, hret.totLen, hret.ihl, ← hp.length_l4Message]
    exact List.length_pos_iff.mpr hne
  rw [hq.cell_l4Message hpos, hret.l4Offset, icmpReply, h.cell_replyWith, if_neg (by omega),
    if_pos (by omega)]

/-- A later fragment never leaves as it came: its first byte was the type of a request
and becomes that of a reply. -/
theorem not_echoReply_of_later (h : Carries key frames message) (hp : p ∈ frames)
    (hlater : 8 ≤ (fragmentOf p).offset) {replies : List Frame} {reply : List UInt8}
    (htx : List.Forall₂ (fun p q ↦ xdpIcmpEcho order csumDiff p = .ok (.tx, q)) frames replies)
    (hcarries : Carries key.reversed replies reply) : ¬ IsEchoReply message reply := by
  intro hreply
  obtain ⟨hall, rfl⟩ := (forall₂_transmitted_iff (xdpIcmpEcho_tx_iff order csumDiff)).mp htx
  have hans := hall p hp
  have hpacket := h.packets p hp
  have hret : Returned p (icmpReply order csumDiff p) := icmpReply_returned hans hpacket
  have hmem : icmpReply order csumDiff p ∈ frames.map (icmpReply order csumDiff) :=
    List.mem_map_of_mem hp
  have hne : l4Message p ≠ [] := (h.placed hp).nonempty
  have hne' : l4Message (icmpReply order csumDiff p) ≠ [] := (hcarries.placed hmem).nonempty
  have hbefore := h.cell_message hp (List.length_pos_iff.mpr hne)
  have hafter := hcarries.cell_message hmem (List.length_pos_iff.mpr hne')
  rw [hret.fragmentOf, cell_icmpReply_first hans hpacket hne] at hafter
  rw [hpacket.cell_l4Message (List.length_pos_iff.mpr hne), Nat.add_zero (l4Offset p),
    hans.echo] at hbefore
  have hsame : cell reply (fragmentOf p).offset = cell message (fragmentOf p).offset := by
    obtain ⟨d, hd⟩ := Nat.exists_eq_add_of_le (show 4 ≤ (fragmentOf p).offset by omega)
    rw [hd, ← cell_drop, ← cell_drop, hreply.rest]
  rw [Nat.add_zero] at hbefore hafter
  rw [hbefore, hafter] at hsame
  exact absurd hsame (by decide)

theorem answeredWhole_single (h : Carries key [p] message) (hreq : IsEchoRequest key message) :
    AnsweredWhole order csumDiff key [p] message := by
  have hmem : p ∈ [p] := List.mem_singleton_self p
  have hpacket := h.packets p hmem
  have hfrag := h.fragmentOf_single
  have hmsg : l4Message p = message := congrArg Fragment.payload hfrag
  have hkey : datagramKey p = key := congrArg Fragment.key hfrag
  have hans : Answered p :=
    (answered_iff_looksLikeRequest hpacket ((h.protocol_eq hmem).trans hreq.icmp)).mpr
      (first_looksLikeRequest h hreq hmem (congrArg Fragment.offset hfrag))
  have hcov : 4 * ihl p + 8 ≤ totLen p := by
    have hlen := hreq.header
    rw [← hmsg, hpacket.length_l4Message] at hlen
    omega
  have hrequest : Request p := ⟨hans, hpacket.header, hcov, hpacket.inside⟩
  have hret : Returned p (icmpReply order csumDiff p) := icmpReply_returned hans hpacket
  have hl4 : l4Message (icmpReply order csumDiff p) = _ := hrequest.l4Message_replyWith _
  refine Or.inr ⟨[icmpReply order csumDiff p], l4Message (icmpReply order csumDiff p), ?_,
    ⟨?_, ?_⟩, ?_⟩
  · exact .cons ((xdpIcmpEcho_tx_iff order csumDiff p _).mpr ⟨hans, rfl⟩) .nil
  · intro q hq
    obtain rfl := List.mem_singleton.mp hq
    exact hret.packet hpacket
  · refine ⟨_, List.Perm.refl _, ?_⟩
    rw [List.map_singleton, hret.fragmentOf, hkey, hfrag]
    exact .last (by rw [hl4]; exact List.cons_ne_nil _ _)
  · rw [← hmsg, hrequest.l4Message_eq, hl4]
    have htwo := order.length_bytes16 (replyChecksum order csumDiff p)
    obtain ⟨a, b, hb⟩ := List.length_eq_two.mp htwo
    rw [hb]
    exact ⟨rfl, rfl, rfl, rfl⟩

/-- Each fragment is judged by itself, so that a request is answered whole exactly when
it comes in one piece. -/
theorem icmp_echo_of_fragments (order : ByteOrder) (csumDiff : CsumDiff) {key : DatagramKey}
    {frames : List Frame} {message : List UInt8} (h : Carries key frames message)
    (hreq : IsEchoRequest key message) :
    (∀ p ∈ frames, ((fragmentOf p).offset = 0 ∨ LooksLikeRequest p →
        ∃ q, xdpIcmpEcho order csumDiff p = .ok (.tx, q)) ∧
      (¬ ((fragmentOf p).offset = 0 ∨ LooksLikeRequest p) →
        xdpIcmpEcho order csumDiff p = .ok (.pass, p))) ∧
    (AnsweredWhole order csumDiff key frames message ↔ frames.length = 1) := by
  have hlooks {p : Frame} (hp : p ∈ frames) :
      (fragmentOf p).offset = 0 ∨ LooksLikeRequest p ↔ Answered p := by
    rw [answered_iff_looksLikeRequest (h.packets p hp) ((h.protocol_eq hp).trans hreq.icmp)]
    exact or_iff_right_of_imp (first_looksLikeRequest h hreq hp)
  refine ⟨fun p hp ↦ ?_, ⟨?_, ?_⟩⟩
  · rw [hlooks hp]
    constructor
    · intro hans
      exact ⟨_, (xdpIcmpEcho_tx_iff order csumDiff p _).mpr ⟨hans, rfl⟩⟩
    · intro hans
      rw [xdpIcmpEcho_run, if_neg hans]
  · intro hwhole
    by_contra hlen
    obtain hpass | ⟨replies, reply, htx, hcarries, hreply⟩ := hwhole
    · obtain ⟨p, hp, hfirst⟩ := h.exists_first
      have hrun := hpass p hp
      rw [xdpIcmpEcho_run, if_pos ((hlooks hp).mp (Or.inl hfirst))] at hrun
      cases hrun
    · obtain ⟨p, hp, hlater⟩ := h.exists_later hlen
      exact not_echoReply_of_later h hp hlater htx hcarries hreply
  · intro hlen
    obtain ⟨p, rfl⟩ := List.length_eq_one_iff.mp hlen
    exact answeredWhole_single h hreq

theorem icmp_echo_of_fragments_single :
    IsEchoRequest (datagramKey icmpRequest) (l4Message icmpRequest) ∧
    AnsweredWhole .little (plainCsumDiff .little) (datagramKey icmpRequest) [icmpRequest]
      (l4Message icmpRequest) := by
  have hreq : IsEchoRequest (datagramKey icmpRequest) (l4Message icmpRequest) := by decide
  have hcarries : Carries (datagramKey icmpRequest) [icmpRequest] (l4Message icmpRequest) :=
    ⟨by decide, _, List.Perm.refl _, .last (by decide)⟩
  exact ⟨hreq, (icmp_echo_of_fragments .little (plainCsumDiff .little) hcarries hreq).2.mpr rfl⟩

def longRequest : List UInt8 := [8, 0, 102, 104, 0, 1, 0, 1, 97, 98, 99, 100, 101, 102, 103, 104]

def firstFragment : Frame :=
  [2, 0, 0, 0, 0, 1, 2, 0, 0, 0, 0, 2, 8, 0,
    69, 0, 0, 28, 0, 1, 32, 0, 64, 1, 70, 222, 10, 0, 0, 2, 10, 0, 0, 1,
    8, 0, 102, 104, 0, 1, 0, 1]

def secondFragment : Frame :=
  [2, 0, 0, 0, 0, 1, 2, 0, 0, 0, 0, 2, 8, 0,
    69, 0, 0, 28, 0, 1, 0, 1, 64, 1, 102, 221, 10, 0, 0, 2, 10, 0, 0, 1,
    97, 98, 99, 100, 101, 102, 103, 104]

theorem icmp_echo_answers_in_part :
    Carries (datagramKey firstFragment) [secondFragment, firstFragment] longRequest ∧
    IsEchoRequest (datagramKey firstFragment) longRequest ∧
    ¬ AnsweredWhole .little (plainCsumDiff .little) (datagramKey firstFragment)
      [secondFragment, firstFragment] longRequest := by
  refine ⟨⟨by decide, [fragmentOf firstFragment, fragmentOf secondFragment], .swap _ _ _, ?_⟩,
    by decide, ?_⟩
  · change Cut 8 (datagramKey firstFragment) 0 (longRequest.take 8 ++ longRequest.drop 8) _
    exact .more (by decide) (by decide) (.last (by decide))
  · rintro (hpass | ⟨replies, reply, htx, _⟩)
    · have hrun := hpass firstFragment (by simp)
      rw [xdpIcmpEcho_run, if_pos (by decide)] at hrun
      cases hrun
    · obtain ⟨hall, _⟩ := (forall₂_transmitted_iff (xdpIcmpEcho_tx_iff .little _)).mp htx
      exact absurd (hall secondFragment (by simp)) (by decide)

end KernelBypass.Xdp.IcmpFragments
