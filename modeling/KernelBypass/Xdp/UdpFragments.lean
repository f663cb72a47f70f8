import KernelBypass.Linux.Fragments
import KernelBypass.Xdp.UdpBounce

namespace KernelBypass.Xdp.UdpFragments

open Foundation Buffer Fragmentation Linux Readdress UdpEcho UdpBounce

@[mk_iff]
structure IsUdpDatagram (key : DatagramKey) (message : List UInt8) : Prop where
  udp : key.protocol = 17
  header : 8 ≤ message.length

instance (key : DatagramKey) (message : List UInt8) : Decidable (IsUdpDatagram key message) :=
  decidable_of_iff' _ (isUdpDatagram_iff key message)

@[mk_iff]
structure IsPlain (p : Frame) : Prop where
  noOptions : ihl p = 5
  unpadded : p.length = 14 + totLen p

instance (p : Frame) : Decidable (IsPlain p) := decidable_of_iff' _ (isPlain_iff p)

structure PortsExchanged (request reply : List UInt8) : Prop where
  source : slice reply 0 2 = slice request 2 2
  dest : slice reply 2 2 = slice request 0 2
  data : reply.drop 8 = request.drop 8

structure SameFragment (p q : Frame) : Prop where
  id : netWord q 18 = netWord p 18
  fragOff : netWord q 20 = netWord p 20

variable (order : ByteOrder)

/-- All fragments are passed, or all are transmitted and make up an echo. -/
def EchoedWhole (key : DatagramKey) (frames : List Frame) (message : List UInt8) : Prop :=
  (∀ p ∈ frames, xdpUdpEcho order p = .ok (.pass, p)) ∨
  ∃ replies reply, List.Forall₂ (fun p q ↦ xdpUdpEcho order p = .ok (.tx, q)) frames replies ∧
    List.Forall₂ SameFragment frames replies ∧
    Carries key.reversed replies reply ∧ PortsExchanged message reply

/-- What the program does to the bytes behind the IPv4 header, a UDP header or not. -/
def echoHeader (m : List UInt8) : List UInt8 := overwrite (exchange m 0 2 2) 6 [0, 0]

structure Unharmed (m : List UInt8) : Prop where
  header : 8 ≤ m.length
  ports : slice m 0 2 = slice m 2 2
  check : slice m 6 2 = [0, 0]

section EchoHeader

variable {m : List UInt8}

theorem echoHeader_room (h : 8 ≤ m.length) :
    6 + ([0, 0] : List UInt8).length ≤ (exchange m 0 2 2).length := by
  rw [length_exchange (by omega) (by omega)]
  exact h

theorem length_echoHeader (h : 8 ≤ m.length) : (echoHeader m).length = m.length := by
  rw [echoHeader, length_overwrite (echoHeader_room h), length_exchange (by omega) (by omega)]

theorem cell_echoHeader (h : 8 ≤ m.length) (k : ℕ) :
    cell (echoHeader m) k = if k = 6 ∨ k = 7 then 0 else cell m (partner 0 2 2 k) := by
  rw [echoHeader, cell_overwrite (echoHeader_room h), cell_exchange (by omega) (by omega),
    cell_zero_zero]
  simp only [List.length_cons, List.length_nil]
  by_cases hk : k = 6 ∨ k = 7
  · rw [if_pos (by omega), if_pos hk]
  · rw [if_neg (by omega), if_neg hk]

theorem portsExchanged_echoHeader (h : 8 ≤ m.length) : PortsExchanged m (echoHeader m) where
  source := by
    rw [echoHeader, slice_overwrite_of_disjoint (echoHeader_room h)
      (by rw [length_exchange (by omega) (by omega)]; omega) (by omega)]
    exact slice_exchange_left (by omega) (by omega)
  dest := by
    rw [echoHeader, slice_overwrite_of_disjoint (echoHeader_room h)
      (by rw [length_exchange (by omega) (by omega)]; omega) (by omega)]
    exact slice_exchange_right (by omega) (by omega)
  data := by
    refine drop_congr (length_echoHeader h) fun j hj ↦ ?_
    rw [cell_echoHeader h, if_neg (by omega), partner_of_outside (by omega) (by omega)]

theorem slice_echoHeader_check (h : 8 ≤ m.length) : slice (echoHeader m) 6 2 = [0, 0] :=
  slice_overwrite_self (echoHeader_room h)

theorem echoHeader_eq_self_iff (h : 8 ≤ m.length) : echoHeader m = m ↔ Unharmed m := by
  constructor
  · intro heq
    have hports := (portsExchanged_echoHeader h).source
    have hcheck := slice_echoHeader_check h
    rw [heq] at hports hcheck
    exact ⟨h, hports, hcheck⟩
  · rintro ⟨_, hports, hcheck⟩
    rw [echoHeader, exchange_of_eq (by omega) (by omega) hports, ← hcheck,
      overwrite_slice (by omega)]

theorem PortsExchanged.append {request reply : List UInt8} (h : PortsExchanged request reply)
    (hreq : 8 ≤ request.length) (hrep : 8 ≤ reply.length) (rest : List UInt8) :
    PortsExchanged (request ++ rest) (reply ++ rest) where
  source := by
    rw [slice_append_left (by omega), slice_append_left (by omega), h.source]
  dest := by
    rw [slice_append_left (by omega), slice_append_left (by omega), h.dest]
  data := by
    rw [List.drop_append_of_le_length hreq, List.drop_append_of_le_length hrep, h.data]

end EchoHeader

section Frames

variable {order} {key : DatagramKey} {frames : List Frame} {message : List UInt8} {p q : Frame}

theorem IsPlain.length_l4Message (h : IsPlain p) (hp : IpPacket p) :
    (l4Message p).length + 34 = p.length := by
  have hcov := hp.covered
  rw [hp.length_l4Message, h.unpadded, h.noOptions]
  rw [h.noOptions] at hcov
  omega

theorem udpReply_returned (h : 42 ≤ p.length) : Returned p (udpReply p) :=
  have he := udpReply_echoes h
  ⟨he.length, fun j hj ↦ he.others j (Or.inl hj), he.saddr, he.daddr⟩

theorem sameFragment_udpReply (h : 42 ≤ p.length) : SameFragment p (udpReply p) :=
  ⟨(udpReply_returned h).netWord (by omega), (udpReply_returned h).netWord (by omega)⟩

theorem l4Message_udpReply (h : IsPlain p) (hp : IpPacket p) (hlen : 8 ≤ (l4Message p).length) :
    l4Message (udpReply p) = echoHeader (l4Message p) := by
  have hframe := h.length_l4Message hp
  have hret : Returned p (udpReply p) := udpReply_returned (by omega)
  have hq := hret.packet hp
  have hsame : (l4Message (udpReply p)).length = (l4Message p).length := by
    rw [hq.length_l4Message, hp.length_l4Message, hret.totLen, hret.ihl]
  have hoff : l4Offset p = 34 := by rw [l4Offset, h.noOptions]
  refine ext_cell (by rw [hsame, length_echoHeader hlen]) fun k hk ↦ ?_
  rw [hq.cell_l4Message hk, hret.l4Offset, hoff, cell_udpReply (by omega), cell_echoHeader hlen]
  by_cases hc : k = 6 ∨ k = 7
  · rw [if_pos (by omega), if_pos hc]
  · have hsource : echoSource (34 + k) = 34 + partner 0 2 2 k := by
      grind [echoSource, addressSource, partner]
    have hpartner : partner 0 2 2 k < (l4Message p).length := by grind [partner]
    rw [if_neg (by omega), if_neg hc, hsource, hp.cell_l4Message hpartner, hoff]

theorem transmitted_iff (p q : Frame) : xdpUdpEcho order p = .ok (.tx, q) ↔
    (42 ≤ p.length ∧ cell p 23 = 17) ∧ udpReply p = q := by
  rw [xdpUdpEcho_tx_iff, and_assoc]

theorem fragmentOf_udpReply (h : Carries key frames message) (hp : p ∈ frames) (hplain : IsPlain p)
    (hlen : 8 ≤ (l4Message p).length) : fragmentOf (udpReply p) =
      ⟨key.reversed, (fragmentOf p).offset, (fragmentOf p).more, echoHeader (l4Message p)⟩ := by
  have hframe := hplain.length_l4Message (h.packets p hp)
  have hret : Returned p (udpReply p) := udpReply_returned (by omega)
  have hkey : datagramKey p = key := (h.placed hp).key_eq
  rw [hret.fragmentOf, hkey, l4Message_udpReply hplain (h.packets p hp) hlen]

theorem unharmed_of_echoed (h : Carries key frames message) (hplain : ∀ p ∈ frames, IsPlain p)
    {replies : List Frame} {reply : List UInt8}
    (htx : List.Forall₂ (fun p q ↦ xdpUdpEcho order p = .ok (.tx, q)) frames replies)
    (hcarries : Carries key.reversed replies reply) (hreply : PortsExchanged message reply)
    (hp : p ∈ frames) (hlater : (fragmentOf p).offset ≠ 0) : Unharmed (l4Message p) := by
  obtain ⟨hall, rfl⟩ := (forall₂_transmitted_iff transmitted_iff).mp htx
  have hframe := (hplain p hp).length_l4Message (h.packets p hp)
  have hlong := (hall p hp).1
  have hlen : 8 ≤ (l4Message p).length := by omega
  obtain ⟨d, hd⟩ : ∃ d, (fragmentOf p).offset = 8 + d := by
    obtain ⟨hfirst, _⟩ | hstep := (h.placed hp).step
    · exact absurd hfirst hlater
    · exact Nat.exists_eq_add_of_le (by omega)
  have hafter := (hcarries.placed (List.mem_map_of_mem hp)).content
  have hbefore : slice message (8 + d) (l4Message p).length = l4Message p := by
    rw [← hd]
    exact (h.placed hp).content
  rw [fragmentOf_udpReply h hp (hplain p hp) hlen] at hafter
  change slice reply (fragmentOf p).offset (echoHeader (l4Message p)).length = _ at hafter
  rw [length_echoHeader hlen, hd, ← slice_drop, hreply.data, slice_drop, hbefore] at hafter
  exact (echoHeader_eq_self_iff hlen).mp hafter.symm

theorem portsExchanged_of_unharmed {ordered : List (Fragment DatagramKey UInt8)}
    (hcut : Cut 8 key 0 message ordered) (hlong : ∀ f ∈ ordered, 8 ≤ f.payload.length)
    (hcond : ∀ f ∈ ordered, f.offset ≠ 0 → Unharmed f.payload) :
    PortsExchanged message (ordered.map fun f ↦ echoHeader f.payload).flatten := by
  cases ordered with
  | nil => cases hcut
  | cons first later =>
    obtain ⟨_, hoffsets⟩ := hcut.cons_offsets
    have hsame : later.map (fun f ↦ echoHeader f.payload) = later.map Fragment.payload := by
      refine List.map_congr_left fun f hf ↦ ?_
      have hlater := hoffsets f hf
      have hmem : f ∈ first :: later := List.mem_cons_of_mem _ hf
      exact (echoHeader_eq_self_iff (hlong f hmem)).mpr (hcond f hmem (by omega))
    have hfirst : 8 ≤ first.payload.length := hlong first List.mem_cons_self
    rw [← hcut.flatten, List.map_cons, List.map_cons, List.flatten_cons, List.flatten_cons, hsame]
    exact (portsExchanged_echoHeader hfirst).append hfirst (by rwa [length_echoHeader hfirst]) _

theorem carries_of_unharmed (h : Carries key frames message) (hplain : ∀ p ∈ frames, IsPlain p)
    (hlen : ∀ p ∈ frames, 8 ≤ (l4Message p).length)
    (hcond : ∀ p ∈ frames, (fragmentOf p).offset ≠ 0 → Unharmed (l4Message p)) :
    ∃ reply, Carries key.reversed (frames.map udpReply) reply ∧ PortsExchanged message reply := by
  obtain ⟨ordered, hperm, hcut⟩ := h.reassembles
  have hframe (f : Fragment DatagramKey UInt8) (hf : f ∈ ordered) :
      ∃ p ∈ frames, fragmentOf p = f :=
    List.mem_map.mp (hperm.mem_iff.mp hf)
  have hlong (f : Fragment DatagramKey UInt8) (hf : f ∈ ordered) : 8 ≤ f.payload.length := by
    obtain ⟨p, hp, rfl⟩ := hframe f hf
    exact hlen p hp
  have hunharmed (f : Fragment DatagramKey UInt8) (hf : f ∈ ordered) :
      f.offset ≠ 0 → Unharmed f.payload := by
    obtain ⟨p, hp, rfl⟩ := hframe f hf
    exact hcond p hp
  have hrewrite := hcut.rewrite key.reversed (fun f ↦ echoHeader f.payload)
    fun f hf ↦ length_echoHeader (hlong f hf)
  refine ⟨_, ⟨?_, _, ?_, hrewrite⟩, portsExchanged_of_unharmed hcut hlong hunharmed⟩
  · intro q hq
    obtain ⟨p, hp, rfl⟩ := List.mem_map.mp hq
    have hroom := (hplain p hp).length_l4Message (h.packets p hp)
    have hl := hlen p hp
    exact (udpReply_returned (by omega)).packet (h.packets p hp)
  · refine (hperm.map _).trans (List.Perm.of_eq ?_)
    rw [List.map_map, List.map_map]
    refine List.map_congr_left fun p hp ↦ ?_
    exact (fragmentOf_udpReply h hp (hplain p hp) (hlen p hp)).symm

end Frames

/-- Each fragment is echoed as if it began with a UDP header, so that a datagram is
echoed whole exactly when that does nothing to the fragments that do not. -/
theorem udp_echo_of_fragments {key : DatagramKey} {frames : List Frame} {message : List UInt8}
    (h : Carries key frames message) (hplain : ∀ p ∈ frames, IsPlain p)
    (hudp : IsUdpDatagram key message) :
    (∀ p ∈ frames,
      ((l4Message p).length < 8 → xdpUdpEcho order p = .ok (.aborted, p)) ∧
      (8 ≤ (l4Message p).length → ∃ q, xdpUdpEcho order p = .ok (.tx, q) ∧ SameFragment p q ∧
        fragmentOf q =
          ⟨key.reversed, (fragmentOf p).offset, (fragmentOf p).more, echoHeader (l4Message p)⟩)) ∧
    (EchoedWhole order key frames message ↔
      ∀ p ∈ frames, (fragmentOf p).offset ≠ 0 → Unharmed (l4Message p)) := by
  have hproto {p : Frame} (hp : p ∈ frames) : cell p 23 = 17 := (h.protocol_eq hp).trans hudp.udp
  have hroom {p : Frame} (hp : p ∈ frames) : (l4Message p).length + 34 = p.length :=
    (hplain p hp).length_l4Message (h.packets p hp)
  have hfirst {p : Frame} (hp : p ∈ frames) (hoff : (fragmentOf p).offset = 0) :
      8 ≤ (l4Message p).length := h.first_length hudp.header hp hoff
  have htx {p : Frame} (hp : p ∈ frames) (hlen : 8 ≤ (l4Message p).length) :
      xdpUdpEcho order p = .ok (.tx, udpReply p) := by
    have hframe := hroom hp
    exact (transmitted_iff p _).mpr ⟨⟨by omega, hproto hp⟩, rfl⟩
  refine ⟨fun p hp ↦ ⟨fun hshort ↦ ?_, fun hlen ↦ ?_⟩, ⟨?_, ?_⟩⟩
  · have hframe := hroom hp
    rw [xdpUdpEcho_run, if_pos (by omega)]
  · have hframe := hroom hp
    exact ⟨_, htx hp hlen, sameFragment_udpReply (by omega),
      fragmentOf_udpReply h hp (hplain p hp) hlen⟩
  · rintro (hpass | ⟨replies, reply, hforall, _, hcarries, hreply⟩) p hp hlater
    · obtain ⟨r, hr, hoff⟩ := h.exists_first
      have hrun := hpass r hr
      rw [htx hr (hfirst hr hoff)] at hrun
      cases hrun
    · exact unharmed_of_echoed h hplain hforall hcarries hreply hp hlater
  · intro hcond
    have hlen (p : Frame) (hp : p ∈ frames) : 8 ≤ (l4Message p).length := by
      by_cases hoff : (fragmentOf p).offset = 0
      · exact hfirst hp hoff
      · exact (hcond p hp hoff).header
    obtain ⟨reply, hcarries, hreply⟩ := carries_of_unharmed h hplain hlen hcond
    refine Or.inr ⟨frames.map udpReply, reply, ?_, ?_, hcarries, hreply⟩
    · rw [List.forall₂_map_right_iff, List.forall₂_same]
      exact fun p hp ↦ htx hp (hlen p hp)
    · rw [List.forall₂_map_right_iff, List.forall₂_same]
      intro p hp
      have hframe := hroom hp
      have hl := hlen p hp
      exact sameFragment_udpReply (by omega)

def zeroDatagram : List UInt8 := [156, 64, 35, 40, 0, 16, 44, 99, 0, 0, 0, 0, 0, 0, 0, 0]

def zeroHeaderFragment : Frame :=
  [2, 0, 0, 0, 0, 1, 2, 0, 0, 0, 0, 2, 8, 0,
    69, 0, 0, 28, 0, 1, 32, 0, 64, 17, 70, 206, 10, 0, 0, 2, 10, 0, 0, 1,
    156, 64, 35, 40, 0, 16, 44, 99]

def zeroDataFragment : Frame :=
  [2, 0, 0, 0, 0, 1, 2, 0, 0, 0, 0, 2, 8, 0,
    69, 0, 0, 28, 0, 1, 0, 1, 64, 17, 102, 205, 10, 0, 0, 2, 10, 0, 0, 1,
    0, 0, 0, 0, 0, 0, 0, 0]

theorem udp_echo_of_fragments_zeros :
    IsUdpDatagram (datagramKey zeroHeaderFragment) zeroDatagram ∧
    EchoedWhole .little (datagramKey zeroHeaderFragment) [zeroDataFragment, zeroHeaderFragment]
      zeroDatagram := by
  have hudp : IsUdpDatagram (datagramKey zeroHeaderFragment) zeroDatagram := by decide
  have hcarries : Carries (datagramKey zeroHeaderFragment) [zeroDataFragment, zeroHeaderFragment]
      zeroDatagram := by
    refine ⟨by decide, [fragmentOf zeroHeaderFragment, fragmentOf zeroDataFragment], .swap _ _ _, ?_⟩
    change Cut 8 (datagramKey zeroHeaderFragment) 0 (zeroDatagram.take 8 ++ zeroDatagram.drop 8) _
    exact .more (by decide) (by decide) (.last (by decide))
  refine ⟨hudp, (udp_echo_of_fragments .little hcarries (by decide) hudp).2.mpr ?_⟩
  rw [List.forall_mem_cons, List.forall_mem_singleton]
  exact ⟨fun _ ↦ ⟨by decide, by decide, by decide⟩, fun hlater ↦ absurd (by decide) hlater⟩

def longDatagram : List UInt8 :=
  [156, 64, 35, 40, 0, 16, 154, 205, 97, 98, 99, 100, 101, 102, 103, 104]

def headerFragment : Frame :=
  [2, 0, 0, 0, 0, 1, 2, 0, 0, 0, 0, 2, 8, 0,
    69, 0, 0, 28, 0, 1, 32, 0, 64, 17, 70, 206, 10, 0, 0, 2, 10, 0, 0, 1,
    156, 64, 35, 40, 0, 16, 154, 205]

def dataFragment : Frame :=
  [2, 0, 0, 0, 0, 1, 2, 0, 0, 0, 0, 2, 8, 0,
    69, 0, 0, 28, 0, 1, 0, 1, 64, 17, 102, 205, 10, 0, 0, 2, 10, 0, 0, 1,
    97, 98, 99, 100, 101, 102, 103, 104]

theorem udp_echo_scrambles_fragment :
    Carries (datagramKey headerFragment) [dataFragment, headerFragment] longDatagram ∧
    (∀ p ∈ [dataFragment, headerFragment], IsPlain p) ∧
    IsUdpDatagram (datagramKey headerFragment) longDatagram ∧
    ¬ EchoedWhole .little (datagramKey headerFragment) [dataFragment, headerFragment]
      longDatagram := by
  have hcarries : Carries (datagramKey headerFragment) [dataFragment, headerFragment]
      longDatagram := by
    refine ⟨by decide, [fragmentOf headerFragment, fragmentOf dataFragment], .swap _ _ _, ?_⟩
    change Cut 8 (datagramKey headerFragment) 0 (longDatagram.take 8 ++ longDatagram.drop 8) _
    exact .more (by decide) (by decide) (.last (by decide))
  have hplain : ∀ p ∈ [dataFragment, headerFragment], IsPlain p := by decide
  refine ⟨hcarries, hplain, by decide, ?_⟩
  rintro (hpass | ⟨replies, reply, htx, _, hreplies, hreply⟩)
  · have hrun := hpass headerFragment (by simp)
    rw [(transmitted_iff headerFragment _).mpr ⟨by decide, rfl⟩] at hrun
    cases hrun
  · have hdata : Unharmed (l4Message dataFragment) :=
      unharmed_of_echoed hcarries hplain htx hreplies hreply (by simp) (by decide)
    exact absurd hdata.ports (by decide)

end KernelBypass.Xdp.UdpFragments
