import KernelBypass.Foundation.Buffer
import KernelBypass.Foundation.ByteOrder

namespace KernelBypass.Foundation.Access

open Buffer

inductive Fault
  | outOfBounds (offset size : ℕ)
  deriving DecidableEq, Repr

/-- Programs over one buffer, whose loads and stores are checked against its
bounds. -/
abbrev Program (α β : Type) := StateT (List α) (Except Fault) β

variable {α β γ : Type}

def bufferEnd : Program α ℕ := fun p ↦ .ok (p.length, p)

def load (i n : ℕ) : Program α (List α) := fun p ↦
  if i + n ≤ p.length then .ok (slice p i n, p) else .error (.outOfBounds i n)

def store (i : ℕ) (v : List α) : Program α Unit := fun p ↦
  if i + v.length ≤ p.length then .ok ((), overwrite p i v) else .error (.outOfBounds i v.length)

def fault (i n : ℕ) : Program α β := fun _ ↦ .error (.outOfBounds i n)

def memcpy (dst src n : ℕ) : Program α Unit := do
  let v ← load src n
  store dst v

theorem bind_run {m : Program α β} {f : β → Program α γ} {p q : List α} {b : β}
    (h : m p = .ok (b, q)) : (m >>= f) p = f b q := by
  change Except.bind (m p) (fun s ↦ f s.1 s.2) = f b q
  rw [h]
  rfl

theorem pure_run (b : β) (p : List α) : (pure b : Program α β) p = .ok (b, p) := rfl

theorem bufferEnd_run (p : List α) : (bufferEnd : Program α ℕ) p = .ok (p.length, p) := rfl

theorem load_run {p : List α} {i n : ℕ} (h : i + n ≤ p.length) :
    load i n p = .ok (slice p i n, p) := if_pos h

theorem store_run {p v : List α} {i : ℕ} (h : i + v.length ≤ p.length) :
    store i v p = .ok ((), overwrite p i v) := if_pos h

theorem memcpy_run {p : List α} {dst src n : ℕ} (hs : src + n ≤ p.length) (hd : dst + n ≤ p.length) :
    memcpy dst src n p = .ok ((), overwrite p dst (slice p src n)) := by
  rw [memcpy, bind_run (load_run hs), store_run (by rwa [length_slice hs])]

/-- Saving a range, copying a second range over it and storing the saved copy in
the second range exchanges the two. -/
theorem exchange_run {p : List α} {a b n : ℕ} (ha : a + n ≤ p.length) (hb : b + n ≤ p.length)
    (k : Unit → Program α β) :
    (do let tmp ← load a n; memcpy a b n; let u ← store b tmp; k u : Program α β) p =
      k () (exchange p a b n) := by
  have hsa := length_slice ha
  have hsb := length_slice hb
  have hlen : (overwrite p a (slice p b n)).length = p.length := length_overwrite (by omega)
  rw [bind_run (load_run ha), bind_run (memcpy_run hb ha), bind_run (store_run (by omega))]
  rfl

section Tables

variable (ends : α → Bool)

/-- The entries of an array from index `i` on up to one that ends it, each of them read
within the bounds. -/
def scan (i : ℕ) : List α → Except Fault (List α)
  | [] => .error (.outOfBounds i 1)
  | a :: l => if ends a then .ok [] else (a :: ·) <$> scan (i + 1) l

variable {ends}

theorem scan_append {l : List α} (h : ∀ a ∈ l, ends a = false) (i : ℕ) (rest : List α) :
    scan ends i (l ++ rest) = (l ++ ·) <$> scan ends (i + l.length) rest := by
  induction l generalizing i with
  | nil => simp
  | cons a l ih =>
    have ha := h a List.mem_cons_self
    have hrest := ih (fun b hb ↦ h b (List.mem_cons_of_mem a hb)) (i + 1)
    simp only [List.cons_append, scan, ha, hrest, List.length_cons, Functor.map_map]
    rw [Nat.add_right_comm, Nat.add_assoc]
    rfl

end Tables

section Bytes

variable (order : ByteOrder)

def load8 (i : ℕ) : Program UInt8 UInt8 := do
  let v ← load i 1
  return cell v 0

def store8 (i : ℕ) (b : UInt8) : Program UInt8 Unit := store i [b]

def load16 (i : ℕ) : Program UInt8 UInt16 := do
  let v ← load i 2
  return order.word16 (cell v 0) (cell v 1)

def store16 (i : ℕ) (v : UInt16) : Program UInt8 Unit := store i (order.bytes16 v)

variable {p : List UInt8} {i : ℕ}

theorem load8_run (h : i + 1 ≤ p.length) : load8 i p = .ok (cell p i, p) := by
  rw [load8, bind_run (load_run h), pure_run, cell_slice (by omega), Nat.add_zero]

theorem store8_run (h : i + 1 ≤ p.length) (b : UInt8) :
    store8 i b p = .ok ((), overwrite p i [b]) := store_run h

theorem load16_run (h : i + 2 ≤ p.length) :
    load16 order i p = .ok (order.word16 (cell p i) (cell p (i + 1)), p) := by
  rw [load16, bind_run (load_run h), pure_run, cell_slice (by omega), cell_slice (by omega),
    Nat.add_zero]

theorem length_overwrite16 (h : i + 2 ≤ p.length) (v : UInt16) :
    (overwrite p i (order.bytes16 v)).length = p.length :=
  length_overwrite (by rwa [ByteOrder.length_bytes16])

theorem cell_overwrite16 (h : i + 2 ≤ p.length) (v : UInt16) (j : ℕ) :
    cell (overwrite p i (order.bytes16 v)) j =
      if i ≤ j ∧ j < i + 2 then cell (order.bytes16 v) (j - i) else cell p j := by
  rw [cell_overwrite (by rwa [ByteOrder.length_bytes16]), ByteOrder.length_bytes16]

theorem store16_run (h : i + 2 ≤ p.length) (v : UInt16) :
    store16 order i v p = .ok ((), overwrite p i (order.bytes16 v)) :=
  store_run (by simpa using h)

end Bytes

end KernelBypass.Foundation.Access
