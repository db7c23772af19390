import Mathlib.Data.List.Basic
import Mathlib.Algebra.Order.Group.Nat
import Mathlib.Tactic.Ring

/-! Reading bytes by the rules of little-endian CDR.  A reader keeps the offset of the next byte,
since a primitive of `k` bytes is preceded by zero bytes up to a multiple of `k`.  `Reads` says that
a reader at an offset reads given bytes as a value and stops right after them; its rules follow the
readers, so the encoding of a composite is the encodings of its parts, one after the other, each at
the offset that the parts before it reach.  `Encodes` says that a writer appends what a reader
reads. -/

universe u v

namespace Cdr

/-- The `k` low bytes of `n`, lowest first. -/
def le : Nat → Nat → List UInt8
  | 0, _ => []
  | k + 1, n => UInt8.ofNat n :: le k (n / 256)

/-- The number that bytes denote, lowest first. -/
def fromLe : List UInt8 → Nat
  | [] => 0
  | b :: rest => b.toNat + 256 * fromLe rest

@[simp] theorem le_length (k n : Nat) : (le k n).length = k := by
  induction k generalizing n with
  | zero => rfl
  | succ k ih => simp [le, ih]

theorem fromLe_le {k n : Nat} (h : n < 256 ^ k) : fromLe (le k n) = n := by
  induction k generalizing n with
  | zero => simp [le, fromLe]; omega
  | succ k ih =>
    have hHigh : n / 256 < 256 ^ k := by
      apply Nat.div_lt_of_lt_mul
      rwa [Nat.pow_succ, Nat.mul_comm] at h
    simp only [le, fromLe, ih hHigh, UInt8.toNat_ofNat']
    omega

/-- The number of zero bytes before a primitive of `k` bytes at offset `off`. -/
def padding (k off : Nat) : Nat := (k - off % k) % k

def pad (k off : Nat) : List UInt8 := List.replicate (padding k off) 0

theorem pad_length (k off : Nat) : (pad k off).length = padding k off := List.length_replicate

/-- A reader of `α`, from the offset and the bytes that are left. -/
abbrev Reader (α : Type) := StateT (Nat × List UInt8) Option α

namespace Reader

variable {α : Type}

/-- The next `n` bytes. -/
def take (n : Nat) : Reader (List UInt8) := fun (off, bytes) =>
  if n ≤ bytes.length then some (bytes.take n, (off + n, bytes.drop n)) else none

/-- The zero bytes before a primitive of `k` bytes. -/
def skipPad (k : Nat) : Reader Unit := do
  let (off, _) ← get
  let zeros ← take (padding k off)
  if zeros = pad k off then pure () else failure

/-- An unsigned primitive of `k` bytes. -/
def prim (k : Nat) : Reader Nat := do
  skipPad k
  let bytes ← take k
  pure (fromLe bytes)

/-- A string: its length with the terminating NUL, its bytes, and the NUL. -/
def string : Reader (List UInt8) := do
  let n ← prim 4
  let bytes ← take n
  if bytes.getLast? = some 0 then pure bytes.dropLast else failure

/-- `n` elements, one after the other. -/
def array (p : Reader α) : Nat → Reader (List α)
  | 0 => pure []
  | n + 1 => do
    let a ← p
    let rest ← array p n
    pure (a :: rest)

/-- A count and that many elements. -/
def sequence (p : Reader α) : Reader (List α) := do
  let n ← prim 4
  array p n

/-- The value that `bytes` encode, when the reader consumes all of them. -/
def decode (p : Reader α) (bytes : List UInt8) : Option α :=
  match p (0, bytes) with
  | some (a, (_, [])) => some a
  | _ => none

end Reader

open Reader

variable {α β : Type}

/-- At offset `off`, `p` reads `bytes` as `a` and leaves whatever follows them. -/
def Reads (p : Reader α) (off : Nat) (bytes : List UInt8) (a : α) : Prop :=
  ∀ rest, p (off, bytes ++ rest) = some (a, (off + bytes.length, rest))

theorem Reads.pure (off : Nat) (a : α) : Reads (Pure.pure a) off [] a := fun _ => rfl

theorem Reads.bind {p : Reader α} {f : α → Reader β} {off : Nat} {bytes bytes' : List UInt8} {a : α}
    {b : β} (hp : Reads p off bytes a) (hf : Reads (f a) (off + bytes.length) bytes' b) :
    Reads (p >>= f) off (bytes ++ bytes') b := by
  intro rest
  show (p (off, bytes ++ bytes' ++ rest) >>= fun r => f r.1 r.2) = _
  rw [List.append_assoc, hp, List.length_append, ← Nat.add_assoc]
  exact hf rest

/-- A last step that reads nothing. -/
theorem Reads.map {p : Reader α} {off : Nat} {bytes : List UInt8} {a : α} (f : α → β)
    (hp : Reads p off bytes a) : Reads (do let x ← p; Pure.pure (f x)) off bytes (f a) := by
  have h := Reads.bind (f := fun x => Pure.pure (f x)) hp (Reads.pure _ (f a))
  rwa [List.append_nil] at h

theorem Reads.take (off : Nat) (bytes : List UInt8) : Reads (take bytes.length) off bytes bytes := by
  intro rest
  simp [Reader.take]

theorem Reads.skipPad (k off : Nat) : Reads (skipPad k) off (pad k off) () := by
  intro rest
  have h := Reads.take off (pad k off) rest
  rw [pad_length] at h
  show (Reader.take (padding k off) (off, pad k off ++ rest) >>= fun r =>
    (if r.1 = pad k off then Pure.pure () else failure : Reader Unit) r.2) = _
  rw [h, pad_length]
  simp only [Option.bind_eq_bind, Option.bind_some, if_true]
  rfl

theorem Reads.prim {k n : Nat} (off : Nat) (h : n < 256 ^ k) :
    Reads (prim k) off (pad k off ++ le k n) n := by
  have hBytes := (Reads.take (off + (pad k off).length) (le k n)).map fromLe
  rw [fromLe_le h, le_length] at hBytes
  exact Reads.bind (Reads.skipPad k off) hBytes

theorem Reads.string (off : Nat) (s : List UInt8) (h : s.length + 1 < 2 ^ 32) :
    Reads string off (pad 4 off ++ le 4 (s.length + 1) ++ (s ++ [0])) s := by
  refine Reads.bind (Reads.prim off h) fun rest => ?_
  have hBytes := Reads.take (off + (pad 4 off ++ le 4 (s.length + 1)).length) (s ++ [0]) rest
  rw [List.length_append, List.length_singleton] at hBytes
  show (Reader.take (s.length + 1) (_, s ++ [0] ++ rest) >>= fun r =>
    (if r.1.getLast? = some 0 then Pure.pure r.1.dropLast else failure :
      Reader (List UInt8)) r.2) = _
  rw [hBytes, Option.bind_eq_bind, Option.bind_some]
  simp only [List.getLast?_concat, if_true, List.dropLast_concat, List.length_append,
    List.length_singleton]
  rfl

/-- Bytes that read as a value, with nothing left, decode to it. -/
theorem Reads.decode {p : Reader α} {bytes : List UInt8} {a : α} (h : Reads p 0 bytes a) :
    decode p bytes = some a := by
  have hAll := h []
  rw [List.append_nil] at hAll
  simp [Reader.decode, hAll]

/-! ### Writers -/

/-- A writer extends a buffer in which the bytes to read begin after `start`: it appends bytes that
`p` reads as `a`, wherever the buffer ends. -/
def Encodes (start : List UInt8) (write : List UInt8 → List UInt8) (p : Reader α) (a : α) : Prop :=
  ∃ enc : Nat → List UInt8,
    (∀ bytes, write (start ++ bytes) = start ++ (bytes ++ enc bytes.length)) ∧
      ∀ off, Reads p off (enc off) a

variable {start : List UInt8} {write write' : List UInt8 → List UInt8}

theorem Encodes.bind {p : Reader α} {f : α → Reader β} {a : α} {b : β}
    (h : Encodes start write p a) (h' : Encodes start write' (f a) b) :
    Encodes start (fun data => write' (write data)) (p >>= f) b := by
  obtain ⟨enc, hWrite, hReads⟩ := h
  obtain ⟨enc', hWrite', hReads'⟩ := h'
  refine ⟨fun off => enc off ++ enc' (off + (enc off).length), fun bytes => ?_, fun off => ?_⟩
  · simp only [hWrite, hWrite', List.append_assoc, List.length_append]
  · exact (hReads off).bind (hReads' _)

theorem Encodes.pure (a : α) : Encodes start (fun data => data) (Pure.pure a) a :=
  ⟨fun _ => [], fun bytes => by simp, fun off => Reads.pure off a⟩

/-- A last step that writes nothing. -/
theorem Encodes.map {p : Reader α} {a : α} (f : α → β) (h : Encodes start write p a) :
    Encodes start write (do let x ← p; Pure.pure (f x)) (f a) :=
  h.bind (f := fun x => Pure.pure (f x)) (Encodes.pure (f a))

/-- A loop that writes the elements is read element by element. -/
theorem Encodes.array {p : Reader α} {writeOne : List UInt8 → α → List UInt8} (l : List α)
    (h : ∀ a ∈ l, Encodes start (writeOne · a) p a) :
    Encodes start (fun data => l.foldl writeOne data) (array p l.length) l := by
  induction l with
  | nil => exact Encodes.pure []
  | cons a rest ih =>
    have hRest := ih fun b hb => h b (List.mem_cons_of_mem a hb)
    exact Encodes.bind (h a List.mem_cons_self) (f := fun a => do
      let rest ← Reader.array p rest.length
      Pure.pure (a :: rest)) (hRest.map (a :: ·))

/-- What a writer makes of `start` alone decodes, after `start`, to the value. -/
theorem Encodes.decode {p : Reader α} {a : α} (h : Encodes start write p a) :
    ∃ bytes, write start = start ++ bytes ∧ Reader.decode p bytes = some a := by
  obtain ⟨enc, hWrite, hReads⟩ := h
  refine ⟨enc 0, ?_, (hReads 0).decode⟩
  simpa using hWrite []

end Cdr
