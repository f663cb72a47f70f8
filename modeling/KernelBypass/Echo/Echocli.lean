import KernelBypass.Foundation.StopAndWait
import KernelBypass.Echo.Server
import Mathlib.Data.Multiset.MapFold

namespace KernelBypass.Echo.Echocli

open Foundation Buffer

/-- The variables of the client's loop; `t0` has a value while `recv` blocks. Times are of
the type of `now_ms`. -/
structure Client (τ : Type) where
  i : ℕ
  buf : List UInt8
  t0 : Option τ
  min : τ
  max : τ

/-- A datagram in flight. Its bytes do not show which request it belongs to. -/
structure Message where
  number : ℕ
  bytes : List UInt8
  deriving DecidableEq

structure Rtt (τ : Type) where
  number : ℕ
  rtt : τ
  echoOf : ℕ

structure System (τ : Type) where
  client : Client τ
  server : Server.State
  requests : List Message
  replies : List Message
  rtts : List (Rtt τ)

inductive Event (τ : Type)
  | send (now : τ)
  | recv (m : Message) (now : τ)
  | serve (m : Message)
  | serverError
  | duplicateRequest (m : Message)
  | duplicateReply (m : Message)

variable {τ : Type} [Sub τ] [LT τ] [DecidableLT τ] (payload count : ℕ) (address : Server.SockaddrIn)

def Enabled (s : System τ) : Event τ → Prop
  | .send _ => s.client.t0 = none ∧ s.client.i < count
  | .recv m _ => s.client.t0.isSome ∧ m ∈ s.replies
  | .serve m => m ∈ s.requests
  | .serverError => True
  | .duplicateRequest m => m ∈ s.requests
  | .duplicateReply m => m ∈ s.replies

instance (s : System τ) : DecidablePred (Enabled count s) := fun e ↦ by
  cases e <;> unfold Enabled <;> infer_instance

/-- From the return of `recv` to the head of the loop. -/
def Client.record (c : Client τ) (bytes : List UInt8) (rtt : τ) : Client τ where
  i := c.i + 1
  buf := overwrite c.buf 0 (bytes.take payload)
  t0 := none
  min := if rtt < c.min then rtt else c.min
  max := if rtt > c.max then rtt else c.max

/-- Any datagram in flight may be the next to arrive. -/
def next (s : System τ) : Event τ → System τ
  | .send now => { s with
      client := { s.client with t0 := some now }
      requests := ⟨s.client.i, s.client.buf⟩ :: s.requests }
  | .recv m now =>
    match s.client.t0 with
    | none => s
    | some t0 => { s with
        client := s.client.record payload m.bytes (now - t0)
        replies := s.replies.erase m
        rtts := ⟨s.client.i, now - t0, m.number⟩ :: s.rtts }
  | .serve m =>
    match Server.serve s.server (some (address, m.bytes)) with
    | (.sendto _ bytes, server) => { s with
        server := server
        requests := s.requests.erase m
        replies := ⟨m.number, bytes⟩ :: s.replies }
    | (.perror _, server) => { s with server := server }
  | .serverError => { s with server := (Server.serve s.server none).2 }
  | .duplicateRequest m => { s with requests := m :: s.requests }
  | .duplicateReply m => { s with replies := m :: s.replies }

def Step (e : Event τ) (s t : System τ) : Prop := Enabled count s e ∧ next payload address s e = t

def start (server : Server.State) (min max : τ) : System τ where
  client := ⟨0, List.replicate payload 0xAB, none, min, max⟩
  server := server
  requests := []
  replies := []
  rtts := []

section Protocol

variable {payload count : ℕ} {address : Server.SockaddrIn} {s t : System τ} {e : Event τ}

def numbers (l : List Message) : Multiset ℕ := (l : Multiset Message).map Message.number

theorem numbers_cons (m : Message) (l : List Message) :
    numbers (m :: l) = m.number ::ₘ numbers l := rfl

theorem numbers_erase {m : Message} {l : List Message} (h : m ∈ l) :
    m.number ::ₘ numbers (l.erase m) = numbers l := by
  rw [numbers, ← Multiset.map_cons, ← Multiset.coe_erase, Multiset.cons_erase (Multiset.mem_coe.mpr h)]
  rfl

/-- The system as the exchange of numbered messages that it is. -/
def view (s : System τ) : StopAndWait.State where
  next := s.client.i
  waiting := s.client.t0.isSome
  inFlight := numbers s.requests + numbers s.replies
  log := s.rtts.map fun r ↦ (r.number, r.echoOf)

def Event.shape : Event τ → StopAndWait.Event
  | .send _ => .sent
  | .recv _ _ => .taken
  | .serve _ => .silent
  | .serverError => .silent
  | .duplicateRequest _ => .copied
  | .duplicateReply _ => .copied

variable (payload address) in
theorem next_serve (s : System τ) (m : Message) : ∃ server, next payload address s (.serve m) =
    { s with
      server := server
      requests := s.requests.erase m
      replies := ⟨m.number, m.bytes.take Server.bufSz⟩ :: s.replies } := by
  have hout : (Server.serve s.server (some (address, m.bytes))).1 =
      .sendto address (m.bytes.take Server.bufSz) := Server.serve_output _ _
  rw [next]
  generalize Server.serve s.server (some (address, m.bytes)) = served at hout ⊢
  obtain ⟨out, server⟩ := served
  change out = _ at hout
  subst hout
  exact ⟨server, rfl⟩

theorem view_step (h : Step payload count address e s t) :
    StopAndWait.Step e.shape (view s) (view t) := by
  obtain ⟨henabled, rfl⟩ := h
  cases e with
  | send now =>
    obtain ⟨hready, _⟩ := henabled
    simp only [view, next, hready, numbers_cons, Multiset.cons_add]
    exact .sent _ _ _
  | recv m now =>
    obtain ⟨hblocked, hm⟩ := henabled
    obtain ⟨t0, ht0⟩ := Option.isSome_iff_exists.mp hblocked
    simp only [view, next, ht0, ← numbers_erase hm, Multiset.add_cons]
    exact .taken _ _ _ _
  | serve m =>
    obtain ⟨server, hnext⟩ := next_serve payload address s m
    rw [hnext]
    simp only [view, numbers_cons, ← numbers_erase henabled, Multiset.cons_add, Multiset.add_cons]
    exact .silent _
  | serverError => exact .silent _
  | duplicateRequest m =>
    simp only [view, next, numbers_cons, ← numbers_erase henabled, Multiset.cons_add]
    exact .copied _ _ _ _ _
  | duplicateReply m =>
    simp only [view, next, numbers_cons, ← numbers_erase henabled, Multiset.add_cons]
    exact .copied _ _ _ _ _

end Protocol

section Bytes

variable {payload count : ℕ} {address : Server.SockaddrIn} {s t : System τ} {e : Event τ}

/-- Nothing in the bytes of a datagram tells one request from another. -/
structure Alike (payload : ℕ) (s : System τ) : Prop where
  buf : s.client.buf = List.replicate payload 0xAB
  requests : ∀ m ∈ s.requests, m.bytes = List.replicate payload 0xAB
  replies : ∀ m ∈ s.replies, m.bytes = List.replicate (min Server.bufSz payload) 0xAB

theorem Alike.step (h : Step payload count address e s t) (hs : Alike payload s) :
    Alike payload t := by
  obtain ⟨henabled, rfl⟩ := h
  cases e with
  | send now => exact ⟨hs.buf, List.forall_mem_cons.mpr ⟨hs.buf, hs.requests⟩, hs.replies⟩
  | recv m now =>
    obtain ⟨hblocked, hm⟩ := henabled
    obtain ⟨t0, ht0⟩ := Option.isSome_iff_exists.mp hblocked
    simp only [next, ht0]
    refine ⟨?_, hs.requests, fun m' hm' ↦ hs.replies m' (List.mem_of_mem_erase hm')⟩
    simp only [Client.record, hs.buf, hs.replies m hm, overwrite, List.take_replicate,
      List.drop_replicate, List.length_replicate, List.replicate_append_replicate]
    congr 1
    omega
  | serve m =>
    obtain ⟨server, hnext⟩ := next_serve payload address s m
    have hreply : m.bytes.take Server.bufSz =
        List.replicate (min Server.bufSz payload) 0xAB := by
      rw [hs.requests m henabled, List.take_replicate]
    rw [hnext]
    exact ⟨hs.buf, fun m' hm' ↦ hs.requests m' (List.mem_of_mem_erase hm'),
      List.forall_mem_cons.mpr ⟨hreply, hs.replies⟩⟩
  | serverError => exact ⟨hs.buf, hs.requests, hs.replies⟩
  | duplicateRequest m =>
    exact ⟨hs.buf, List.forall_mem_cons.mpr ⟨hs.requests m henabled, hs.requests⟩, hs.replies⟩
  | duplicateReply m =>
    exact ⟨hs.buf, hs.requests, List.forall_mem_cons.mpr ⟨hs.replies m henabled, hs.replies⟩⟩

theorem datagrams_alike {es : List (Event τ)} {server : Server.State} {min max : τ}
    (h : Trace (Step payload count address) es (start payload server min max) t) :
    Alike payload t := by
  refine h.invariant (P := fun _ ↦ True) (fun _ _ _ _ hstep hs ↦ hs.step hstep)
    (fun _ _ ↦ trivial) ⟨rfl, ?_, ?_⟩
  · simp [start]
  · simp [start]

end Bytes

/-- A time is recorded for an echo of its own request or of an earlier one, and only a
network that duplicates can make it an earlier one. -/
theorem rtt_of_request (payload count : ℕ) (address : Server.SockaddrIn) (server : Server.State)
    (min max : τ) (es : List (Event τ)) (t : System τ)
    (h : Trace (Step payload count address) es (start payload server min max) t) :
    (∀ r ∈ t.rtts, r.echoOf ≤ r.number) ∧
      ((∀ e ∈ es, e.shape ≠ .copied) → ∀ r ∈ t.rtts, r.echoOf = r.number) := by
  have htrace : Trace StopAndWait.Step (es.map Event.shape) StopAndWait.start (view t) :=
    h.map Event.shape view fun _ _ _ ↦ view_step
  have hlog (r : Rtt τ) (hr : r ∈ t.rtts) : (r.number, r.echoOf) ∈ (view t).log :=
    List.mem_map_of_mem hr
  constructor
  · intro r hr
    exact (StopAndWait.trace_earlier htrace).log _ (hlog r hr)
  · intro hes r hr
    refine (StopAndWait.trace_matched htrace ?_).log _ (hlog r hr)
    intro hcopied
    obtain ⟨e, he, hshape⟩ := List.mem_map.mp hcopied
    exact hes e he hshape

def clientAddress : Server.SockaddrIn := ⟨[10, 0, 0, 2], [156, 64]⟩

def firstByte : Message := ⟨0, [0xAB]⟩

def secondByte : Message := ⟨1, [0xAB]⟩

theorem rtt_of_two_requests :
    ∃ t, Trace (Step 1 2 clientAddress) [.send 0, .serve firstByte, .recv firstByte 5, .send 6,
        .serve secondByte, .recv secondByte 9] (start 1 Server.zeroed 1000 0) t ∧
      t.rtts.map Rtt.number = [1, 0] ∧ ∀ r ∈ t.rtts, r.echoOf = r.number := by
  obtain ⟨t, h, htwo⟩ : ∃ t, Trace (Step 1 2 clientAddress) [.send 0, .serve firstByte,
      .recv firstByte 5, .send 6, .serve secondByte, .recv secondByte 9]
      (start 1 Server.zeroed 1000 0) t ∧ t.rtts.map Rtt.number = [1, 0] :=
    ⟨_, .cons ⟨by decide, rfl⟩ (.cons ⟨by decide, rfl⟩ (.cons ⟨by decide, rfl⟩
      (.cons ⟨by decide, rfl⟩ (.cons ⟨by decide, rfl⟩ (.cons ⟨by decide, rfl⟩ (.nil _)))))), rfl⟩
  exact ⟨t, h, htwo, (rtt_of_request 1 2 clientAddress Server.zeroed 1000 0 _ t h).2 (by decide)⟩

/-- The second copy of an echo is taken for the echo of the next request. -/
theorem rtt_of_duplicate :
    ∃ t, Trace (Step 1 2 clientAddress) [.send 0, .serve firstByte, .duplicateReply firstByte,
        .recv firstByte 5, .send 6, .recv firstByte 7] (start 1 Server.zeroed 1000 0) t ∧
      ∃ r ∈ t.rtts, r.number = 1 ∧ r.rtt = 1 ∧ r.echoOf = 0 := by
  refine ⟨_, .cons ⟨by decide, rfl⟩ (.cons ⟨by decide, rfl⟩ (.cons ⟨by decide, rfl⟩
    (.cons ⟨by decide, rfl⟩ (.cons ⟨by decide, rfl⟩ (.cons ⟨by decide, rfl⟩ (.nil _)))))), ?_⟩
  exact ⟨⟨1, 1, 0⟩, List.mem_cons_self, rfl, rfl, rfl⟩

end KernelBypass.Echo.Echocli
