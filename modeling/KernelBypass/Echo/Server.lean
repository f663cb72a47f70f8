import KernelBypass.Xdp.UdpIntegrity
import Mathlib.Data.Vector.Basic

namespace KernelBypass.Echo.Server

open Foundation Buffer OnesComplement Linux Xdp.UdpEcho Xdp.UdpBounce Xdp.UdpService Xdp.UdpIntegrity

abbrev bufSz : ℕ := 2048

/-- Port 9000, in network order. -/
abbrev port : List UInt8 := [0x23, 0x28]

abbrev inaddrAny : List UInt8 := [0, 0, 0, 0]

structure SockaddrIn where
  sinAddr : List UInt8
  sinPort : List UInt8
  deriving DecidableEq

structure State where
  buf : List.Vector UInt8 bufSz
  peer : SockaddrIn

/-- What `recvfrom` finds: the sender and the payload of a datagram, or an error. -/
abbrev Arrival := Option (SockaddrIn × List UInt8)

inductive Output
  | perror (s : String)
  | sendto (dest : SockaddrIn) (bytes : List UInt8)
  deriving DecidableEq

/-- A datagram that does not fit is cut off; behind a shorter one the buffer keeps its
bytes. -/
def recvfrom (s : State) (sender : SockaddrIn) (payload : List UInt8) : ℕ × State :=
  (min payload.length bufSz,
    { buf := ⟨overwrite s.buf.toList 0 (payload.take bufSz), by
        rw [length_overwrite] <;> rw [s.buf.toList_length]
        rw [List.length_take]
        omega⟩
      peer := sender })

def serve (s : State) : Arrival → Output × State
  | none => (.perror "recvfrom", s)
  | some (sender, payload) =>
    let (n, s) := recvfrom s sender payload
    (.sendto s.peer (s.buf.toList.take n), s)

def loop : State → List Arrival → List Output
  | _, [] => []
  | s, a :: arrivals => (serve s a).1 :: loop (serve s a).2 arrivals

/-- The output up to some moment, and the exit code if the process has ended. -/
def main (socket : Bool) (bind : SockaddrIn → Bool) (s : State) (arrivals : List Arrival) :
    List Output × Option ℕ :=
  if !socket then ([.perror "socket"], some 1)
  else if !bind ⟨inaddrAny, port⟩ then ([.perror "bind"], some 1)
  else (loop s arrivals, none)

/-- What the server is for. -/
def echo : Arrival → Output
  | none => .perror "recvfrom"
  | some (sender, payload) => .sendto sender (payload.take bufSz)

theorem serve_output (s : State) (a : Arrival) : (serve s a).1 = echo a := by
  cases a with
  | none => rfl
  | some received =>
    obtain ⟨sender, payload⟩ := received
    have hlen : (payload.take bufSz).length = min payload.length bufSz := by
      rw [List.length_take, Nat.min_comm]
    have hroom : 0 + (payload.take bufSz).length ≤ s.buf.toList.length := by
      rw [s.buf.toList_length]
      omega
    have hsent : (overwrite s.buf.toList 0 (payload.take bufSz)).take (min payload.length bufSz) =
        payload.take bufSz := by
      rw [← hlen]
      exact slice_overwrite_self hroom
    exact congrArg (Output.sendto sender) hsent

/-- No byte of an earlier datagram comes back in a later answer. -/
theorem loop_eq_map (s : State) (arrivals : List Arrival) : loop s arrivals = arrivals.map echo := by
  induction arrivals generalizing s with
  | nil => rfl
  | cons a arrivals ih => rw [loop, serve_output, ih, List.map_cons]

theorem main_output {socket : Bool} {bind : SockaddrIn → Bool} {s : State}
    {arrivals : List Arrival} (h : (main socket bind s arrivals).2 = none) :
    (main socket bind s arrivals).1 = arrivals.map echo := by
  unfold main at h ⊢
  split_ifs at h ⊢
  exact loop_eq_map s arrivals

structure Datagram where
  source : SockaddrIn
  dest : SockaddrIn
  payload : List UInt8
  deriving DecidableEq

/-- The datagram in a frame; what its UDP length does not cover is padding. -/
def datagram (p : Frame) : Datagram where
  source := ⟨slice p 26 4, slice p (l4Offset p) 2⟩
  dest := ⟨slice p 30 4, slice p (l4Offset p + 2) 2⟩
  payload := slice p (l4Offset p + 8) (netWord p (l4Offset p + 4) - 8)

def received (p : Frame) : Arrival := some ((datagram p).source, (datagram p).payload)

/-- What leaves the host when `main` sends: the bound port is the source port, and the
bound address being `INADDR_ANY`, the stack selects the source address. -/
def sent (sourceAddr : SockaddrIn → List UInt8) (dest : SockaddrIn) (bytes : List UInt8) : Datagram :=
  ⟨⟨sourceAddr dest, port⟩, dest, bytes⟩

@[mk_iff]
structure EchoRequest (p : Frame) : Prop extends UdpRequest p where
  noOptions : ihl p = 5
  checksum : Verifies (ipHeader p)
  udpHeader : 8 ≤ netWord p 38
  covered : netWord p 38 ≤ totLen p - 20
  inside : 14 + totLen p ≤ p.length
  udpChecksum : netWord p 40 = 0 ∨ Verifies (pseudoHeader p ++ slice p 34 (netWord p 38))
  toServer : slice p 36 2 = port

instance (p : Frame) : Decidable (EchoRequest p) := decidable_of_iff' _ (echoRequest_iff p)

section Reply

variable {p q : Frame}

theorem EchoRequest.l4Offset_eq (h : EchoRequest p) : l4Offset p = 34 := by
  rw [l4Offset, h.noOptions]

theorem EchoRequest.payload_inside (h : EchoRequest p) : 42 + (netWord p 38 - 8) ≤ p.length := by
  have hudp := h.udpHeader
  have hcover := h.covered
  have hin := h.inside
  omega

theorem EchoRequest.length_payload (h : EchoRequest p) :
    (datagram p).payload.length = netWord p 38 - 8 := by
  simp only [datagram, h.l4Offset_eq, Nat.reduceAdd]
  exact length_slice h.payload_inside

theorem EchoRequest.datagram_udpReply (h : EchoRequest p) : datagram (udpReply p) =
    ⟨(datagram p).dest, (datagram p).source, (datagram p).payload⟩ := by
  have hlong := h.toUdpRequest.long
  have hoff := h.l4Offset_eq
  have he := udpReply_echoes hlong
  have hlen : netWord (udpReply p) 38 = netWord p 38 :=
    netWord_congr (he.others 38 (by omega)) (he.others 39 (by omega))
  have hpayload : slice (udpReply p) 42 (netWord p 38 - 8) = slice p 42 (netWord p 38 - 8) :=
    he.slice_of_fixed h.payload_inside (by omega)
  simp only [datagram, l4Offset_udpReply hlong, hoff, Nat.reduceAdd, he.saddr, he.daddr, he.sport,
    he.dport, hlen, hpayload]

theorem EchoRequest.xdpUdpEcho_tx (h : EchoRequest p) (order : ByteOrder) :
    xdpUdpEcho order p = .ok (.tx, udpReply p) :=
  (xdpUdpEcho_tx_iff order p _).mpr ⟨h.toUdpRequest.long, h.udp, rfl⟩

/-- The two answers are the same when the server's comes from the address the request
went to and the buffer holds the payload. -/
theorem EchoRequest.sent_eq_iff (h : EchoRequest p) (sourceAddr : SockaddrIn → List UInt8) :
    sent sourceAddr (datagram p).source ((datagram p).payload.take bufSz) = datagram (udpReply p) ↔
      sourceAddr (datagram p).source = slice p 30 4 ∧ netWord p 38 - 8 ≤ bufSz := by
  have hport : slice p (l4Offset p + 2) 2 = port := by
    rw [h.l4Offset_eq]
    exact h.toServer
  rw [h.datagram_udpReply, ← h.length_payload, ← List.take_eq_self_iff]
  simp [sent, hport, datagram]

end Reply

/-- Whatever the server has answered before, its answer to a request is the XDP program's
up to the size of the buffer and the choice of the source address. -/
theorem server_answers_like_xdp (order : ByteOrder) (sourceAddr : SockaddrIn → List UInt8)
    (socket : Bool) (bind : SockaddrIn → Bool) (s : State) (earlier : List Arrival) (p : Frame)
    (hup : (main socket bind s (earlier ++ [received p])).2 = none) (h : EchoRequest p) :
    ∃ q dest bytes, xdpUdpEcho order p = .ok (.tx, q) ∧
      (main socket bind s (earlier ++ [received p])).1.getLast? = some (.sendto dest bytes) ∧
      (sent sourceAddr dest bytes).dest = (datagram q).dest ∧
      (sent sourceAddr dest bytes).source.sinPort = (datagram q).source.sinPort ∧
      (sent sourceAddr dest bytes).payload = (datagram q).payload.take bufSz ∧
      (sent sourceAddr dest bytes = datagram q ↔
        sourceAddr (datagram p).source = slice p 30 4 ∧ netWord p 38 - 8 ≤ bufSz) := by
  refine ⟨udpReply p, (datagram p).source, (datagram p).payload.take bufSz, h.xdpUdpEcho_tx order,
    ?_, ?_, ?_, ?_, h.sent_eq_iff sourceAddr⟩
  · rw [main_output hup, List.map_append, List.getLast?_append_of_ne_nil _ (by simp)]
    rfl
  · rw [h.datagram_udpReply]
    rfl
  · rw [h.datagram_udpReply]
    simp only [sent, datagram, h.l4Offset_eq]
    exact h.toServer.symm
  · rw [h.datagram_udpReply]
    rfl

def zeroed : State := ⟨List.Vector.replicate bufSz 0, ⟨inaddrAny, [0, 0]⟩⟩

def longRequest : Frame :=
  [2, 0, 0, 0, 0, 1, 2, 0, 0, 0, 0, 2, 8, 0,
    69, 0, 8, 29, 0, 1, 0, 0, 64, 17, 94, 205, 10, 0, 0, 2, 10, 0, 0, 1,
    156, 64, 35, 40, 8, 9, 194, 193] ++ List.replicate 2049 171

theorem server_answers_request :
    ∃ q dest bytes, xdpUdpEcho .little udpRequest = .ok (.tx, q) ∧
      (main true (fun _ ↦ true) zeroed ([none] ++ [received udpRequest])).1.getLast? =
        some (.sendto dest bytes) ∧
      sent (fun _ ↦ [10, 0, 0, 1]) dest bytes = datagram q := by
  obtain ⟨q, dest, bytes, hxdp, hmain, _, _, _, hiff⟩ := server_answers_like_xdp .little
    (fun _ ↦ [10, 0, 0, 1]) true (fun _ ↦ true) zeroed [none] udpRequest rfl (by decide)
  exact ⟨q, dest, bytes, hxdp, hmain, hiff.mpr (by decide)⟩

theorem echoRequest_longRequest : EchoRequest longRequest := by
  decide +kernel

theorem server_cuts_off_long_request :
    EchoRequest longRequest ∧
    xdpUdpEcho .little longRequest = .ok (.tx, udpReply longRequest) ∧
    ∃ dest bytes, main true (fun _ ↦ true) zeroed [received longRequest] =
        ([.sendto dest bytes], none) ∧
      bytes.length = 2048 ∧ (datagram (udpReply longRequest)).payload.length = 2049 ∧
      sent (fun _ ↦ [10, 0, 0, 1]) dest bytes ≠ datagram (udpReply longRequest) := by
  have h := echoRequest_longRequest
  have hlen : netWord longRequest 38 = 2057 := by decide
  have hpayload := h.length_payload
  refine ⟨h, h.xdpUdpEcho_tx .little, (datagram longRequest).source,
    (datagram longRequest).payload.take bufSz, ?_, ?_, ?_, ?_⟩
  · exact Prod.ext (main_output rfl) rfl
  · rw [List.length_take, hpayload, hlen]
    rfl
  · rw [h.datagram_udpReply]
    exact hpayload.trans (by rw [hlen])
  · rw [Ne, h.sent_eq_iff, hlen]
    rintro ⟨_, hle⟩
    exact absurd hle (by decide)

end KernelBypass.Echo.Server
