import VehicleCanDecoder.Messages
import VehicleCanDecoder.Lib.Hoare
import VehicleCanDecoder.Lib.UnorderedMap
import VehicleCanDecoder.Lib.Ownership

/-! `CanReader`: a reader of a SocketCAN interface, over the system calls that it makes.  What the
operating system answers to a call is a function of how many calls there were, so that any of them
can fail at any time.  The ledger is not part of the program: it records which reader a descriptor
was opened, moved or closed by. -/

namespace VehicleCanDecoder

/-- What the operating system keeps of a socket. -/
structure Socket where
  boundTo : Option Int
  timestamps : Bool
  nonBlocking : Bool

/-- `can_frame` of Linux. -/
structure RawFrame where
  canId : UInt32
  canDlc : UInt8
  data : Payload

/-- What comes of `recvmsg`: `errno`, or the bytes received, with the `timeval` of the control
message for a timestamp. -/
inductive Received
  | failed (errno : Int)
  | bytes (n : Nat) (frame : RawFrame) (timeval : Option (Int × Int))

/-- The answers of the operating system, by the number of the call. -/
structure Kernel where
  socket : Nat → UnorderedMap Int Socket → Int
  ioctl : Nat → ByteString → Option Int
  bind : Nat → Bool
  setsockopt : Nat → Bool
  fcntlGetfl : Nat → Option UInt32
  fcntlSetfl : Nat → Bool
  recvmsg : Nat → Received
  clockGettime : Nat → Int × Int

/-- The sockets of the process that are open, by their descriptors. -/
structure Process where
  calls : Nat
  sockets : UnorderedMap Int Socket
  ledger : List (Ownership.Event ObjectId Int)

abbrev Sys := EStateM Empty Process

/-- What a program on the process returns, and the process after it. -/
def Sys.eval {α : Type} (c : Sys α) (p : Process) : α × Process :=
  match c p with
  | .ok a p' => (a, p')
  | .error e _ => nomatch e

/-- A program on the process, from every state in `P`, ends in `Q`. -/
abbrev Sys.Triple {α : Type} (P : Process → Prop) (c : Sys α) (Q : α → Process → Prop) : Prop :=
  Hoare.Triple P c Q fun _ _ => False

theorem Sys.Triple.eval {α : Type} {P : Process → Prop} {c : Sys α} {Q : α → Process → Prop}
    (h : Sys.Triple P c Q) {p : Process} (hp : P p) : Q (c.eval p).1 (c.eval p).2 := by
  have hRun := h p hp
  unfold Sys.eval
  cases hc : c p with
  | ok a p' => rwa [hc] at hRun
  | error e p' => exact nomatch e

namespace SysCall

variable (kernel : Kernel)

def socket (self : ObjectId) : Sys Int := modifyGet fun p =>
  let fd := kernel.socket p.calls p.sockets
  (fd, { p with
    calls := p.calls + 1
    sockets := if 0 ≤ fd then p.sockets.insert fd ⟨none, false, false⟩ else p.sockets
    ledger := if 0 ≤ fd then p.ledger ++ [.acquired self fd] else p.ledger })

def close (self : ObjectId) (fd : Int) : Sys PUnit := modifyGet fun p =>
  (⟨⟩, { p with
    calls := p.calls + 1
    sockets := p.sockets.erase fd
    ledger := p.ledger ++ [.released self fd] })

/-- The call does something to a socket if it succeeds. -/
def onSocket (fd : Int) (ok : Nat → Bool) (f : Socket → Socket) : Sys Bool := modifyGet fun p =>
  (ok p.calls, { p with
    calls := p.calls + 1
    sockets :=
      match ok p.calls, p.sockets.lookup fd with
      | true, some sock => p.sockets.insert fd (f sock)
      | _, _ => p.sockets })

/-- The call tells something and does nothing. -/
def ask {α : Type} (answer : Nat → α) : Sys α := modifyGet fun p =>
  (answer p.calls, { p with calls := p.calls + 1 })

/-- `ioctl` with `SIOCGIFINDEX`: the index of an interface. -/
def ioctl (name : ByteString) : Sys (Option Int) := ask fun n => kernel.ioctl n name

def bind (fd ifindex : Int) : Sys Bool :=
  onSocket fd kernel.bind fun sock => { sock with boundTo := some ifindex }

/-- `setsockopt` with `SO_TIMESTAMP`. -/
def setsockopt (fd : Int) : Sys Bool :=
  onSocket fd kernel.setsockopt fun sock => { sock with timestamps := true }

/-- `fcntl` with `F_GETFL`. -/
def fcntlGetfl : Sys (Option UInt32) := ask kernel.fcntlGetfl

def O_NONBLOCK : UInt32 := 0o4000

/-- `fcntl` with `F_SETFL`. -/
def fcntlSetfl (fd : Int) (flags : UInt32) : Sys Bool :=
  onSocket fd kernel.fcntlSetfl fun sock => { sock with nonBlocking := flags &&& O_NONBLOCK ≠ 0 }

def recvmsg : Sys Received := ask kernel.recvmsg

/-- `clock_gettime` with `CLOCK_REALTIME`. -/
def clockGettime : Sys (Int × Int) := ask kernel.clockGettime

/-- A descriptor passes to another reader, without a system call. -/
def handOver (other self : ObjectId) (fd : Int) : Sys PUnit := modifyGet fun p =>
  (⟨⟩, { p with ledger := if 0 ≤ fd then p.ledger ++ [.handedOver other self fd] else p.ledger })

end SysCall

structure CanReader where
  fd : Int
  lastErrno : Int
  interfaceName : ByteString

namespace CanReader

variable (kernel : Kernel)

def fresh : CanReader := ⟨-1, 0, []⟩

def isOpen (r : CanReader) : Bool := 0 ≤ r.fd

def clearError (r : CanReader) : CanReader := { r with lastErrno := 0 }

def close (self : ObjectId) (r : CanReader) : Sys CanReader :=
  if 0 ≤ r.fd then do
    SysCall.close self r.fd
    return { r with fd := -1 }
  else return r

/-- `strncpy` of `IFNAMSIZ - 1` bytes of a C string. -/
def ifrName (interfaceName : ByteString) : ByteString :=
  (interfaceName.takeWhile (· ≠ 0)).take 15

/-- The failure exits of `open` after `socket`. -/
def giveUp (self : ObjectId) (r : CanReader) : Sys (CanReader × Bool) := do
  SysCall.close self r.fd
  return ({ r with fd := -1 }, false)

/-- `open`, from the socket on. -/
def setUp (self : ObjectId) (r : CanReader) (interfaceName : ByteString) :
    Sys (CanReader × Bool) := do
  match ← SysCall.ioctl kernel (ifrName interfaceName) with
  | none => giveUp self r
  | some ifindex =>
    if ← SysCall.bind kernel r.fd ifindex then
      -- Not fatal if it fails.
      let _ ← SysCall.setsockopt kernel r.fd
      match ← SysCall.fcntlGetfl kernel with
      | none => giveUp self r
      | some flags =>
        if ← SysCall.fcntlSetfl kernel r.fd (flags ||| SysCall.O_NONBLOCK) then
          return ({ r with interfaceName }, true)
        else giveUp self r
    else giveUp self r

/-- `open`. -/
def openInterface (self : ObjectId) (r : CanReader) (interfaceName : ByteString) :
    Sys (CanReader × Bool) := do
  let r ← r.close self
  let r := { r with lastErrno := 0, interfaceName := [] }
  let fd ← SysCall.socket kernel self
  if fd < 0 then return ({ r with fd }, false)
  else setUp kernel self { r with fd } interfaceName

def sizeofCanFrame : Nat := 16

def EAGAIN : Int := 11

/-- Seconds, and a number of smaller units. -/
def toSeconds (t : Int × Int) (unit : Float) : Double :=
  (Float.ofInt t.1 + Float.ofInt t.2 * unit).toBits

def clampDlc (dlc : UInt8) : Nat := if dlc.toNat ≤ 8 then dlc.toNat else 8

theorem clampDlc_le (dlc : UInt8) : clampDlc dlc ≤ 8 := by
  unfold clampDlc
  split <;> omega

/-- The frame of the bytes that were received, without the flag bits of the identifier. -/
def toCanFrame (raw : RawFrame) (timestamp : Double) : CanFrame :=
  let valid := clampDlc raw.canDlc
  let copied := Payload.copyN raw.data valid (clampDlc_le raw.canDlc) Payload.zeros
  { id := if raw.canId &&& 0x80000000 ≠ 0 then raw.canId &&& 0x1FFFFFFF else raw.canId &&& 0x7FF
    dlc := raw.canDlc
    timestamp
    data := if valid < 8 then copied.fillFrom valid (clampDlc_le raw.canDlc) 0 else copied }

def readFrame (r : CanReader) : Sys (CanReader × Option CanFrame) :=
  if r.fd < 0 then return (r, none)
  else do
    let r := { r with lastErrno := 0 }
    match ← SysCall.recvmsg kernel with
    | .failed errno =>
      if errno = EAGAIN then return (r, none) else return ({ r with lastErrno := errno }, none)
    | .bytes n raw timeval =>
      if n < sizeofCanFrame then return (r, none)
      else
        match timeval with
        | some tv => return (r, some (toCanFrame raw (toSeconds tv 1e-6)))
        | none =>
          let ts ← SysCall.clockGettime kernel
          return (r, some (toCanFrame raw (toSeconds ts 1e-9)))

/-- A closed reader reads nothing, and nothing of it changes. -/
theorem readFrame_closed {r : CanReader} (h : r.fd < 0) (p : Process) :
    (r.readFrame kernel).eval p = ((r, none), p) := by
  unfold readFrame
  rw [if_pos h]
  rfl

/-- An open reader returns what comes of `recvmsg`, with the error of that call or without one. -/
theorem readFrame_open {r : CanReader} (h : ¬ r.fd < 0) (p : Process) :
    match kernel.recvmsg p.calls with
    | .failed errno => ((r.readFrame kernel).eval p).1 =
        (if errno = EAGAIN then { r with lastErrno := 0 } else { r with lastErrno := errno }, none)
    | .bytes n raw _ => ∃ timestamp, ((r.readFrame kernel).eval p).1 =
        ({ r with lastErrno := 0 },
          if n < sizeofCanFrame then none else some (toCanFrame raw timestamp)) := by
  have hEval : (r.readFrame kernel).eval p =
      (match kernel.recvmsg p.calls with
        | .failed errno =>
          if errno = EAGAIN then return ({ r with lastErrno := 0 }, none)
          else return ({ r with lastErrno := errno }, none)
        | .bytes n raw timeval =>
          if n < sizeofCanFrame then return ({ r with lastErrno := 0 }, none)
          else
            match timeval with
            | some tv =>
              return ({ r with lastErrno := 0 }, some (toCanFrame raw (toSeconds tv 1e-6)))
            | none => do
              let ts ← SysCall.clockGettime kernel
              return ({ r with lastErrno := 0 }, some (toCanFrame raw (toSeconds ts 1e-9))) :
        Sys (CanReader × Option CanFrame)).eval { p with calls := p.calls + 1 } := by
    unfold readFrame
    rw [if_neg h]
    rfl
  rw [hEval]
  cases kernel.recvmsg p.calls with
  | failed errno =>
    by_cases hAgain : errno = EAGAIN
    · simp only [if_pos hAgain]
      rfl
    · simp only [if_neg hAgain]
      rfl
  | bytes n raw timeval =>
    by_cases hShort : n < sizeofCanFrame
    · simp only [if_pos hShort]
      exact ⟨0, rfl⟩
    · simp only [if_neg hShort]
      cases timeval with
      | some tv => exact ⟨_, rfl⟩
      | none => exact ⟨_, rfl⟩

/-- The move constructor: the new reader, and the other one after it, with what is left of its
string. -/
def moveConstruct (self otherId : ObjectId) (left : ByteString) (other : CanReader) :
    Sys (CanReader × CanReader) := do
  SysCall.handOver otherId self other.fd
  return (⟨other.fd, other.lastErrno, other.interfaceName⟩, ⟨-1, 0, left⟩)

/-- The move assignment from another reader: both after it. -/
def moveAssign (self otherId : ObjectId) (left : ByteString) (r other : CanReader) :
    Sys (CanReader × CanReader) := do
  let r ← r.close self
  SysCall.handOver otherId self other.fd
  return ({ r with
    fd := other.fd, lastErrno := other.lastErrno, interfaceName := other.interfaceName },
    ⟨-1, 0, left⟩)

end CanReader

end VehicleCanDecoder
