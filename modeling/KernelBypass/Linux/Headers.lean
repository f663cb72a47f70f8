import KernelBypass.Foundation.Access
import Mathlib.Tactic.MkIffOfInductiveProp

namespace KernelBypass.Linux

open Foundation Buffer

inductive XdpAction
  | aborted
  | drop
  | pass
  | tx
  | redirect
  deriving DecidableEq, Repr

abbrev Frame := List UInt8

/-- A program run on the frame of its context; pointers into the frame are
offsets from `ctx->data`. -/
abbrev XdpProgram (β : Type) := Access.Program UInt8 β

def transmit (program : XdpProgram XdpAction) (p : Frame) : Option Frame :=
  match program p with
  | .ok (.tx, q) => some q
  | _ => none

theorem transmit_eq_some_iff {program : XdpProgram XdpAction} {p q : Frame} :
    transmit program p = some q ↔ program p = .ok (.tx, q) := by
  unfold transmit
  split
  · rename_i r hr
    simp [hr]
  · rename_i hne
    exact ⟨fun h ↦ absurd h (by simp), fun h ↦ absurd h (hne q)⟩

abbrev ethAlen : ℕ := 6
abbrev ethPIp : UInt16 := 0x0800
abbrev ethPIpv6 : UInt16 := 0x86DD
abbrev ethP8021Q : UInt16 := 0x8100
abbrev ethP8021AD : UInt16 := 0x88A8
abbrev ipprotoIcmp : UInt8 := 1
abbrev ipprotoUdp : UInt8 := 17
abbrev icmpEcho : UInt8 := 8
abbrev icmpEchoreply : UInt8 := 0

namespace Ethhdr

abbrev hDest : ℕ := 0
abbrev hSource : ℕ := 6
abbrev hProto : ℕ := 12
abbrev size : ℕ := 14

end Ethhdr

namespace VlanHdr

abbrev hVlanTCI : ℕ := 0
abbrev hVlanEncapsulatedProto : ℕ := 2
abbrev size : ℕ := 4

end VlanHdr

namespace Iphdr

abbrev protocol : ℕ := 9
abbrev check : ℕ := 10
abbrev saddr : ℕ := 12
abbrev daddr : ℕ := 16
abbrev size : ℕ := 20

/-- The bit field `ihl` is the low half of the first header byte under either
bit-field layout. -/
def ihl (b : UInt8) : ℕ := b.toNat % 16

end Iphdr

namespace Icmphdr

abbrev type : ℕ := 0
abbrev code : ℕ := 1
abbrev checksum : ℕ := 2
abbrev size : ℕ := 8

end Icmphdr

namespace Ipv6hdr

abbrev nexthdr : ℕ := 6
abbrev saddr : ℕ := 8
abbrev daddr : ℕ := 24
abbrev size : ℕ := 40

end Ipv6hdr

namespace Icmp6hdr

abbrev icmp6Type : ℕ := 0
abbrev size : ℕ := 8

end Icmp6hdr

namespace Tcphdr

abbrev size : ℕ := 20

abbrev doffByte : ℕ := 12

def doff (b : UInt8) : ℕ := b.toNat / 16

end Tcphdr

namespace Udphdr

abbrev source : ℕ := 0
abbrev dest : ℕ := 2
abbrev len : ℕ := 4
abbrev check : ℕ := 6
abbrev size : ℕ := 8

end Udphdr

section Endian

variable (order : ByteOrder)

def bpfHtons (v : UInt16) : UInt16 := order.toBig16 v

def bpfNtohs (v : UInt16) : UInt16 := order.toBig16 v

theorem word16_eq_htons_ip (a b : UInt8) :
    order.word16 a b = bpfHtons order ethPIp ↔ a = 8 ∧ b = 0 := by
  have hc : bpfHtons order ethPIp = order.word16 8 0 := order.word16_eq_toBig16 8 0
  rw [hc]
  exact ⟨order.word16_injective, fun ⟨ha, hb⟩ ↦ by rw [ha, hb]⟩

end Endian

end KernelBypass.Linux
