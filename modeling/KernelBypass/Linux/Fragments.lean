import KernelBypass.Foundation.Fragmentation
import KernelBypass.Linux.Ipv4
import Mathlib.Data.List.Forall2

namespace KernelBypass.Linux

open Foundation Buffer Fragmentation

structure DatagramKey where
  saddr : List UInt8
  daddr : List UInt8
  id : ℕ
  protocol : UInt8
  deriving DecidableEq

def DatagramKey.reversed (key : DatagramKey) : DatagramKey :=
  { key with saddr := key.daddr, daddr := key.saddr }

@[mk_iff]
structure IpPacket (p : Frame) : Prop where
  ipv4 : etherType p = 0x0800
  header : 5 ≤ ihl p
  covered : 4 * ihl p ≤ totLen p
  inside : 14 + totLen p ≤ p.length

instance (p : Frame) : Decidable (IpPacket p) := decidable_of_iff' _ (ipPacket_iff p)

def datagramKey (p : Frame) : DatagramKey := ⟨slice p 26 4, slice p 30 4, netWord p 18, protocol p⟩

/-- The fragment offset counts units of eight bytes; bit 13 says that more follow. -/
def fragmentOf (p : Frame) : Fragment DatagramKey UInt8 :=
  ⟨datagramKey p, 8 * (netWord p 20 % 0x2000), netWord p 20 / 0x2000 % 2 == 1, l4Message p⟩

/-- The frames carry one datagram between them, in any order. -/
structure Carries (key : DatagramKey) (frames : List Frame) (message : List UInt8) : Prop where
  packets : ∀ p ∈ frames, IpPacket p
  reassembles : Reassembles 8 key (frames.map fragmentOf) message

variable {key : DatagramKey} {frames : List Frame} {message : List UInt8} {p q : Frame}

theorem IpPacket.length_l4Message (h : IpPacket p) : (l4Message p).length = totLen p - 4 * ihl p := by
  have hcov := h.covered
  have hin := h.inside
  exact length_slice (by unfold l4Offset; omega)

theorem IpPacket.cell_l4Message (h : IpPacket p) {k : ℕ} (hk : k < (l4Message p).length) :
    cell (l4Message p) k = cell p (l4Offset p + k) := by
  rw [h.length_l4Message] at hk
  exact cell_slice hk

theorem Carries.placed (h : Carries key frames message) (hp : p ∈ frames) :
    Placed 8 key 0 message (fragmentOf p) :=
  h.reassembles.placed (List.mem_map_of_mem hp)

theorem Carries.protocol_eq (h : Carries key frames message) (hp : p ∈ frames) :
    protocol p = key.protocol := by
  rw [← (h.placed hp).key_eq]
  rfl

theorem Carries.cell_message (h : Carries key frames message) (hp : p ∈ frames) {k : ℕ}
    (hk : k < (l4Message p).length) :
    cell message ((fragmentOf p).offset + k) = cell (l4Message p) k := by
  have hcontent : slice message (fragmentOf p).offset (l4Message p).length = l4Message p :=
    (h.placed hp).content
  rw [← cell_slice hk, hcontent]

theorem Carries.first_length (h : Carries key frames message) (hmessage : 8 ≤ message.length)
    (hp : p ∈ frames) (hfirst : (fragmentOf p).offset = 0) : 8 ≤ (l4Message p).length := by
  obtain ⟨_, hunit | hall⟩ | hlater := (h.placed hp).step
  · exact hunit
  · have hmsg : l4Message p = message := hall
    rwa [hmsg]
  · omega

theorem Carries.exists_first (h : Carries key frames message) :
    ∃ p ∈ frames, (fragmentOf p).offset = 0 := by
  obtain ⟨f, hf, hoff⟩ := h.reassembles.exists_first
  obtain ⟨p, hp, rfl⟩ := List.mem_map.mp hf
  exact ⟨p, hp, hoff⟩

theorem Carries.exists_later (h : Carries key frames message) (hlen : frames.length ≠ 1) :
    ∃ p ∈ frames, 8 ≤ (fragmentOf p).offset := by
  obtain hsingle | ⟨f, hf, hlater⟩ := h.reassembles.single_or_later
  · have hone := congrArg List.length hsingle
    rw [List.length_map, List.length_singleton] at hone
    exact absurd hone hlen
  · obtain ⟨p, hp, rfl⟩ := List.mem_map.mp hf
    exact ⟨p, hp, hlater⟩

theorem Carries.fragmentOf_single (h : Carries key [p] message) :
    fragmentOf p = ⟨key, 0, false, message⟩ := by
  obtain hsingle | ⟨f, hf, hlater⟩ := h.reassembles.single_or_later
  · exact List.singleton_inj.mp hsingle
  · obtain ⟨q, hq, hfirst⟩ := h.exists_first
    obtain rfl := List.mem_singleton.mp hq
    obtain rfl := List.mem_singleton.mp hf
    omega

theorem forall₂_transmitted_iff {program : XdpProgram XdpAction} {P : Frame → Prop}
    {reply : Frame → Frame} (htx : ∀ p q, program p = .ok (.tx, q) ↔ P p ∧ reply p = q)
    {replies : List Frame} :
    List.Forall₂ (fun p q ↦ program p = .ok (.tx, q)) frames replies ↔
      (∀ p ∈ frames, P p) ∧ frames.map reply = replies := by
  simp only [htx]
  rw [List.forall₂_and_left, ← List.forall₂_map_left_iff, List.forall₂_eq_eq_eq]

/-- A frame that is sent back where it came from, the transport message apart. -/
structure Returned (p q : Frame) : Prop where
  length : q.length = p.length
  fixed : ∀ j, 12 ≤ j ∧ j < 24 → cell q j = cell p j
  saddr : slice q 26 4 = slice p 30 4
  daddr : slice q 30 4 = slice p 26 4

section Returned

variable (h : Returned p q)

include h

theorem Returned.netWord {i : ℕ} (hi : 12 ≤ i ∧ i < 23) : Linux.netWord q i = Linux.netWord p i :=
  netWord_congr (h.fixed i (by omega)) (h.fixed (i + 1) (by omega))

theorem Returned.ihl : Linux.ihl q = Linux.ihl p := by
  rw [Linux.ihl, h.fixed 14 (by omega), Linux.ihl]

theorem Returned.totLen : Linux.totLen q = Linux.totLen p := h.netWord (by omega)

theorem Returned.l4Offset : Linux.l4Offset q = Linux.l4Offset p := by
  rw [Linux.l4Offset, h.ihl, Linux.l4Offset]

theorem Returned.packet (hp : IpPacket p) : IpPacket q := by
  refine ⟨?_, ?_, ?_, ?_⟩
  · rw [etherType, h.netWord (by omega)]
    exact hp.ipv4
  · rw [h.ihl]
    exact hp.header
  · rw [h.ihl, h.totLen]
    exact hp.covered
  · rw [h.totLen, h.length]
    exact hp.inside

theorem Returned.fragmentOf : Linux.fragmentOf q = ⟨(datagramKey p).reversed,
    (Linux.fragmentOf p).offset, (Linux.fragmentOf p).more, l4Message q⟩ := by
  have hproto : protocol q = protocol p := h.fixed 23 (by omega)
  rw [Linux.fragmentOf, Linux.fragmentOf, datagramKey, datagramKey, DatagramKey.reversed, h.saddr,
    h.daddr, h.netWord (by omega), h.netWord (by omega), hproto]

end Returned

end KernelBypass.Linux
