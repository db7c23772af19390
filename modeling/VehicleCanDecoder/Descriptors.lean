import VehicleCanDecoder.CanReader
import VehicleCanDecoder.Lib.Machine
import VehicleCanDecoder.Lib.Objects

/-! The descriptors of any number of readers, opened, read, moved, closed and destroyed in any
order, while any system call may fail.  Between operations each reader has the descriptors that the
ledger says it owns, these are the sockets that are open, and each of them is bound and does not
block. -/

namespace VehicleCanDecoder

inductive ReaderOp
  | construct (id : ObjectId)
  | openInterface (id : ObjectId) (interfaceName : ByteString)
  | close (id : ObjectId)
  | readFrame (id : ObjectId)
  | clearError (id : ObjectId)
  | moveConstruct (id other : ObjectId) (left : ByteString)
  | moveAssign (id other : ObjectId) (left : ByteString)
  | destroy (id : ObjectId)

structure Readers where
  readers : Objects ObjectId CanReader
  process : Process

namespace Readers

variable (kernel : Kernel)

def initial : Readers := ⟨∅, ⟨0, ∅, []⟩⟩

/-- A call on a reader, if it is there. -/
def call (s : Readers) (id : ObjectId) (f : CanReader → Sys CanReader) : Readers :=
  match s.readers.lookup id with
  | none => s
  | some r =>
    let (r', process) := (f r).eval s.process
    ⟨s.readers.insert id r', process⟩

def step (s : Readers) : ReaderOp → Readers
  | .construct id => { s with readers := s.readers.construct id CanReader.fresh }
  | .openInterface id interfaceName =>
    s.call id fun r => Prod.fst <$> r.openInterface kernel id interfaceName
  | .close id => s.call id (CanReader.close id)
  | .readFrame id => s.call id fun r => Prod.fst <$> r.readFrame kernel
  | .clearError id => s.call id fun r => return r.clearError
  | .moveConstruct id other left =>
    match s.readers.lookup id, s.readers.lookup other with
    | none, some o =>
      let ((r', o'), process) := (CanReader.moveConstruct id other left o).eval s.process
      ⟨(s.readers.insert other o').insert id r', process⟩
    | _, _ => s
  | .moveAssign id other left =>
    if id = other then s
    else
      match s.readers.lookup id, s.readers.lookup other with
      | some r, some o =>
        let ((r', o'), process) := (CanReader.moveAssign id other left r o).eval s.process
        ⟨(s.readers.insert other o').insert id r', process⟩
      | _, _ => s
  | .destroy id =>
    match s.readers.lookup id with
    | none => s
    | some r => ⟨s.readers.erase id, ((r.close id).eval s.process).2⟩

def run (ops : List ReaderOp) : Readers := ops.foldl (step kernel) initial

end Readers

/-- `socket` returns a descriptor that is not open. -/
def Kernel.SocketFresh (kernel : Kernel) : Prop :=
  ∀ n sockets, 0 ≤ kernel.socket n sockets → sockets.lookup (kernel.socket n sockets) = none

/-! ### The accounts of a process -/

/-- The socket is bound, and does not block. -/
def Socket.Ready (sock : Socket) : Prop := sock.boundTo.isSome ∧ sock.nonBlocking = true

/-- The ledger of the process is legal and says who has what; what somebody has is what is open. -/
structure Process.Accounts (p : Process) (holding : ObjectId → Option Int) : Prop where
  legal : Ownership.Legal p.ledger
  agrees : Ownership.Agrees holding p.ledger
  sockets : ∀ fd, (p.sockets.lookup fd).isSome ↔ ∃ id, holding id = some fd

/-- The state between operations. -/
structure Process.Steady (p : Process) (holding : ObjectId → Option Int) : Prop where
  accounts : p.Accounts holding
  ready : ∀ id fd, holding id = some fd → ∃ sock, p.sockets.lookup fd = some sock ∧ sock.Ready

/-- The state while `opener`, which has nothing in `holding`, sets `fd` up, of whose socket
something is known. -/
structure Process.Opening (p : Process) (holding : ObjectId → Option Int) (opener : ObjectId)
    (fd : Int) (Known : Socket → Prop) : Prop where
  accounts : p.Accounts (Function.update holding opener (some fd))
  idle : holding opener = none
  ready : ∀ id fd, holding id = some fd → ∃ sock, p.sockets.lookup fd = some sock ∧ sock.Ready
  known : ∃ sock, p.sockets.lookup fd = some sock ∧ Known sock

/-- No other reader has the descriptor that is set up. -/
theorem Process.Opening.other {p : Process} {holding : ObjectId → Option Int} {self : ObjectId}
    {fd : Int} {Known : Socket → Prop} (h : p.Opening holding self fd Known) {id : ObjectId}
    {fd' : Int} (hHas : holding id = some fd') : fd' ≠ fd := by
  rintro rfl
  have hSelf : id ≠ self := by
    rintro rfl
    simp [h.idle] at hHas
  refine hSelf (h.accounts.agrees.exclusive (r := fd') ?_ (Function.update_self ..))
  rw [Function.update_of_ne hSelf, hHas]

/-- What is set up is ready. -/
theorem Process.Opening.steady {p : Process} {holding : ObjectId → Option Int} {self : ObjectId}
    {fd : Int} (h : p.Opening holding self fd Socket.Ready) :
    p.Steady (Function.update holding self (some fd)) := by
  refine ⟨h.accounts, fun id fd' hHas => ?_⟩
  by_cases hSelf : id = self
  · subst hSelf
    rw [Function.update_self, Option.some.injEq] at hHas
    exact hHas ▸ h.known
  · rw [Function.update_of_ne hSelf] at hHas
    exact h.ready id fd' hHas

/-- What a reader has can be set up anew, or closed. -/
theorem Process.Steady.opening {p : Process} {holding : ObjectId → Option Int} (h : p.Steady holding)
    {self : ObjectId} {fd : Int} (hHas : holding self = some fd) :
    p.Opening (Function.update holding self none) self fd Socket.Ready where
  accounts := by
    rw [Function.update_idem, ← hHas, Function.update_eq_self]
    exact h.accounts
  idle := Function.update_self ..
  ready id fd' hOther := by
    by_cases hSelf : id = self
    · simp [hSelf] at hOther
    · rw [Function.update_of_ne hSelf] at hOther
      exact h.ready id fd' hOther
  known := h.ready self fd hHas

/-- A call that does nothing to the sockets. -/
def Process.called (p : Process) : Process := { p with calls := p.calls + 1 }

theorem Process.Accounts.called {p : Process} {holding : ObjectId → Option Int}
    (h : p.Accounts holding) : p.called.Accounts holding :=
  ⟨h.legal, h.agrees, h.sockets⟩

theorem Process.Steady.called {p : Process} {holding : ObjectId → Option Int}
    (h : p.Steady holding) : p.called.Steady holding :=
  ⟨h.accounts.called, h.ready⟩

theorem Process.Opening.called {p : Process} {holding : ObjectId → Option Int} {self : ObjectId}
    {fd : Int} {Known : Socket → Prop} (h : p.Opening holding self fd Known) :
    p.called.Opening holding self fd Known :=
  ⟨h.accounts.called, h.idle, h.ready, h.known⟩

/-! ### What the system calls do to the accounts -/

section Accounts

variable {kernel : Kernel} {holding : ObjectId → Option Int} {self : ObjectId} {fd : Int}
  {K L : Socket → Prop}

namespace SysCall

theorem ask_steady {α : Type} (answer : Nat → α) :
    Sys.Triple (·.Steady holding) (ask answer) fun _ p => p.Steady holding :=
  Hoare.Triple.modifyGet fun _ h => h.called

theorem ask_opening {α : Type} (answer : Nat → α) :
    Sys.Triple (·.Opening holding self fd K) (ask answer) fun _ p =>
      p.Opening holding self fd K :=
  Hoare.Triple.modifyGet fun _ h => h.called

/-- A call that changes the socket that is set up. -/
theorem onSocket_opening {ok : Nat → Bool} {f : Socket → Socket}
    (hf : ∀ sock, K sock → L (f sock)) :
    Sys.Triple (·.Opening holding self fd K) (onSocket fd ok f) fun done p =>
      p.Opening holding self fd fun sock => if done then L sock else K sock := by
  refine Hoare.Triple.modifyGet fun p h => ?_
  cases hOk : ok p.calls with
  | false => exact h.called
  | true =>
    obtain ⟨sock, hSock, hK⟩ := h.known
    simp only [hSock, if_true]
    refine ⟨⟨h.accounts.legal, h.accounts.agrees, fun fd' => ?_⟩, h.idle, fun id fd' hHas => ?_, ?_⟩
    · rw [← h.accounts.sockets fd', UnorderedMap.lookup_insert_eq]
      by_cases hFd : fd' = fd
      · subst hFd
        simp [hSock]
      · rw [if_neg hFd]
    · rw [UnorderedMap.lookup_insert_eq, if_neg (h.other hHas)]
      exact h.ready id fd' hHas
    · exact ⟨f sock, by simp, hf sock hK⟩

theorem socket_steady (hFresh : kernel.SocketFresh) (hIdle : holding self = none) :
    Sys.Triple (·.Steady holding) (socket kernel self) fun fd p =>
      (fd < 0 ∧ p.Steady holding) ∨ (0 ≤ fd ∧ p.Opening holding self fd fun _ => True) := by
  refine Hoare.Triple.modifyGet fun p h => ?_
  by_cases hFd : 0 ≤ kernel.socket p.calls p.sockets
  · have hNew := hFresh p.calls p.sockets hFd
    have hFree : Ownership.owner p.ledger (kernel.socket p.calls p.sockets) = none := by
      rw [Option.eq_none_iff_forall_ne_some]
      intro id hOwner
      have hOpen := (h.accounts.sockets _).mpr ⟨id, (h.accounts.agrees id _).mpr hOwner⟩
      simp [hNew] at hOpen
    simp only [hFd, if_true]
    refine .inr ⟨trivial, ⟨h.accounts.legal.concat hFree, h.accounts.agrees.acquired hIdle hFree,
      fun fd' => ?_⟩, hIdle, fun id fd' hHas => ?_, ⟨⟨none, false, false⟩, by simp, trivial⟩⟩
    · rw [UnorderedMap.lookup_insert_eq]
      by_cases hSame : fd' = kernel.socket p.calls p.sockets
      · rw [if_pos hSame]
        exact iff_of_true rfl ⟨self, by simp [hSame]⟩
      · rw [if_neg hSame, h.accounts.sockets, Ownership.exists_update_iff hIdle hSame]
    · obtain ⟨sock, hSock, hReady⟩ := h.ready id fd' hHas
      refine ⟨sock, ?_, hReady⟩
      rw [UnorderedMap.lookup_insert_eq, if_neg, hSock]
      rintro rfl
      rw [hSock] at hNew
      contradiction
  · simp only [hFd, if_false]
    exact .inl ⟨by omega, h.called⟩

/-- What is closed is no longer had by anybody. -/
theorem close_opening :
    Sys.Triple (·.Opening holding self fd K) (close self fd) fun _ p => p.Steady holding := by
  refine Hoare.Triple.modifyGet fun p h => ?_
  have hHas : Function.update holding self (some fd) self = some fd := Function.update_self ..
  have hAgrees := h.accounts.agrees.released hHas
  rw [Function.update_idem, ← h.idle, Function.update_eq_self] at hAgrees
  refine ⟨⟨h.accounts.legal.concat ((h.accounts.agrees self fd).mp hHas), hAgrees, fun fd' => ?_⟩,
    fun id fd' hOther => ?_⟩
  · by_cases hFd : fd' = fd
    · subst hFd
      refine iff_of_false (by simp) ?_
      rintro ⟨id, hOther⟩
      exact h.other hOther rfl
    · rw [AList.lookup_erase_ne hFd, h.accounts.sockets, Ownership.exists_update_iff h.idle hFd]
  · rw [AList.lookup_erase_ne (h.other hOther)]
    exact h.ready id fd' hOther

/-- A descriptor passes to a reader that has none. -/
theorem handOver_steady {other : ObjectId} (hNe : self ≠ other) (hIdle : holding self = none)
    (hHas : holding other = if 0 ≤ fd then some fd else none) :
    Sys.Triple (·.Steady holding) (handOver other self fd) fun _ p =>
      p.Steady (holding ∘ Equiv.swap other self) := by
  refine Hoare.Triple.modifyGet fun p h => ?_
  by_cases hFd : 0 ≤ fd
  · rw [if_pos hFd] at hHas
    simp only [hFd, if_true]
    refine ⟨⟨h.accounts.legal.concat ((h.accounts.agrees other fd).mp hHas),
      h.accounts.agrees.handedOver hNe hHas hIdle, fun fd' => ?_⟩, fun id fd' => h.ready _ fd'⟩
    rw [h.accounts.sockets fd']
    exact (Equiv.swap other self).surjective.exists
  · rw [if_neg hFd] at hHas
    simp only [hFd, if_false]
    have hSame : holding ∘ Equiv.swap other self = holding := by
      have hOther : Function.update holding other none = holding :=
        Function.update_eq_self_iff.mpr hHas.symm
      rw [← Ownership.update_eq_swap hIdle, hHas, hOther]
      exact Function.update_eq_self_iff.mpr hIdle.symm
    rwa [hSame]

end SysCall

/-! ### What the operations on a reader do -/

namespace CanReader

/-- The descriptor that a reader has. -/
def descriptor (r : CanReader) : Option Int := if 0 ≤ r.fd then some r.fd else none

theorem close_steady {r : CanReader} (hHas : holding self = r.descriptor) :
    Sys.Triple (·.Steady holding) (r.close self) fun r' p =>
      r'.descriptor = none ∧ p.Steady (Function.update holding self none) := by
  unfold close
  by_cases hFd : 0 ≤ r.fd
  · rw [descriptor, if_pos hFd] at hHas
    rw [if_pos hFd]
    refine Hoare.Triple.bind (SysCall.close_opening.pre fun p h => h.opening hHas) fun _ => ?_
    exact Hoare.Triple.pure fun p h => ⟨rfl, h⟩
  · rw [descriptor, if_neg hFd] at hHas
    rw [if_neg hFd]
    refine Hoare.Triple.pure fun p h => ⟨if_neg hFd, ?_⟩
    rwa [Function.update_eq_self_iff.mpr hHas.symm]

theorem giveUp_opening {r : CanReader} :
    Sys.Triple (·.Opening holding self r.fd K) (giveUp self r) fun result p =>
      result = ({ r with fd := -1 }, false) ∧ p.Steady holding :=
  Hoare.Triple.bind SysCall.close_opening fun _ => Hoare.Triple.pure fun _ h => ⟨rfl, h⟩

theorem nonBlocking_set (flags : UInt32) :
    decide ((flags ||| SysCall.O_NONBLOCK) &&& SysCall.O_NONBLOCK ≠ 0) = true := by
  have hBits : (flags ||| SysCall.O_NONBLOCK) &&& SysCall.O_NONBLOCK = SysCall.O_NONBLOCK := by
    rw [← UInt32.toBitVec_inj, UInt32.toBitVec_and, UInt32.toBitVec_or]
    refine BitVec.eq_of_getLsbD_eq fun i _ => ?_
    rw [BitVec.getLsbD_and, BitVec.getLsbD_or]
    cases flags.toBitVec.getLsbD i <;> simp
  rw [hBits]
  decide

/-- What `open` leaves: the reader has what it has set up, or it is closed and has no interface. -/
def Opened (holding : ObjectId → Option Int) (self : ObjectId) (interfaceName : ByteString)
    (result : CanReader × Bool) (p : Process) : Prop :=
  p.Steady (Function.update holding self result.1.descriptor) ∧
    if result.2 then result.1.isOpen = true ∧ result.1.interfaceName = interfaceName
    else result.1.isOpen = false ∧ result.1.interfaceName = []

theorem giveUp_opened {r : CanReader} (hIdle : holding self = none) (hName : r.interfaceName = [])
    {interfaceName : ByteString} :
    Sys.Triple (·.Opening holding self r.fd K) (giveUp self r)
      (Opened holding self interfaceName) := by
  refine giveUp_opening.post ?_
  rintro _ p ⟨rfl, h⟩
  refine ⟨?_, rfl, hName⟩
  rwa [Function.update_eq_self_iff.mpr (hIdle.symm)]

theorem setUp_opening {r : CanReader} (hFd : 0 ≤ r.fd) (hIdle : holding self = none)
    (hName : r.interfaceName = []) (interfaceName : ByteString) :
    Sys.Triple (·.Opening holding self r.fd fun _ => True) (r.setUp kernel self interfaceName)
      (Opened holding self interfaceName) := by
  unfold setUp
  refine Hoare.Triple.bind (SysCall.ask_opening _) fun ifindex => ?_
  cases ifindex with
  | none => exact giveUp_opened hIdle hName
  | some ifindex =>
    refine Hoare.Triple.bind (SysCall.onSocket_opening (L := fun sock => sock.boundTo.isSome)
      fun _ _ => rfl) fun bound => ?_
    cases bound with
    | false => exact giveUp_opened hIdle hName
    | true =>
      refine Hoare.Triple.bind (SysCall.onSocket_opening (L := fun sock => sock.boundTo.isSome)
        fun _ hBound => hBound) fun stamped => ?_
      simp only [if_true, ite_self]
      refine Hoare.Triple.bind (SysCall.ask_opening _) fun flags => ?_
      cases flags with
      | none => exact giveUp_opened hIdle hName
      | some flags =>
        refine Hoare.Triple.bind (SysCall.onSocket_opening (L := Socket.Ready)
          fun sock hBound => ⟨hBound, nonBlocking_set flags⟩) fun unblocked => ?_
        cases unblocked with
        | false => exact giveUp_opened hIdle hName
        | true =>
          refine Hoare.Triple.pure fun p h => ?_
          simp only [if_true] at h
          refine ⟨?_, by simp [isOpen, hFd]⟩
          simpa [descriptor, hFd] using h.steady

theorem openInterface_steady (hFresh : kernel.SocketFresh) {r : CanReader}
    (hHas : holding self = r.descriptor) (interfaceName : ByteString) :
    Sys.Triple (·.Steady holding) (r.openInterface kernel self interfaceName)
      (Opened (Function.update holding self none) self interfaceName) := by
  have hIdle : Function.update holding self none self = none := Function.update_self ..
  unfold openInterface
  refine Hoare.Triple.bind (close_steady hHas) fun r' => ?_
  refine Hoare.Triple.assume fun _ => ?_
  refine Hoare.Triple.bind (SysCall.socket_steady hFresh hIdle) fun fd => ?_
  by_cases hFd : fd < 0
  · rw [if_pos hFd]
    refine Hoare.Triple.pure fun p h => ?_
    obtain ⟨-, h⟩ | ⟨hPos, -⟩ := h
    · have hNot : ¬ 0 ≤ fd := by omega
      refine ⟨?_, by simp [isOpen, hNot]⟩
      rw [descriptor, if_neg hNot]
      rwa [Function.update_idem]
    · omega
  · rw [if_neg hFd]
    refine (setUp_opening (by simpa using hFd) hIdle rfl interfaceName).pre fun p h => ?_
    obtain ⟨hNeg, -⟩ | ⟨-, h⟩ := h
    · omega
    · exact h

theorem readFrame_steady {r : CanReader} :
    Sys.Triple (·.Steady holding) (r.readFrame kernel) fun result p =>
      result.1.fd = r.fd ∧ p.Steady holding := by
  unfold readFrame
  by_cases hFd : r.fd < 0
  · rw [if_pos hFd]
    exact Hoare.Triple.pure fun p h => ⟨rfl, h⟩
  · rw [if_neg hFd]
    refine Hoare.Triple.bind (SysCall.ask_steady _) fun received => ?_
    cases received with
    | failed errno =>
      dsimp only
      split
      · exact Hoare.Triple.pure fun p h => ⟨rfl, h⟩
      · exact Hoare.Triple.pure fun p h => ⟨rfl, h⟩
    | bytes n raw timeval =>
      dsimp only
      split
      · exact Hoare.Triple.pure fun p h => ⟨rfl, h⟩
      · cases timeval with
        | some tv => exact Hoare.Triple.pure fun p h => ⟨rfl, h⟩
        | none =>
          refine Hoare.Triple.bind (SysCall.ask_steady _) fun ts => ?_
          exact Hoare.Triple.pure fun p h => ⟨rfl, h⟩

theorem moveConstruct_steady {otherId : ObjectId} {other : CanReader} (hNe : self ≠ otherId)
    (hIdle : holding self = none) (hHas : holding otherId = other.descriptor) (left : ByteString) :
    Sys.Triple (·.Steady holding) (moveConstruct self otherId left other) fun result p =>
      result.1.descriptor = other.descriptor ∧ result.2.descriptor = none ∧
        p.Steady (holding ∘ Equiv.swap otherId self) :=
  Hoare.Triple.bind (SysCall.handOver_steady hNe hIdle hHas) fun _ =>
    Hoare.Triple.pure fun _ h => ⟨rfl, rfl, h⟩

theorem moveAssign_steady {otherId : ObjectId} {r other : CanReader} (hNe : self ≠ otherId)
    (hSelf : holding self = r.descriptor) (hHas : holding otherId = other.descriptor)
    (left : ByteString) :
    Sys.Triple (·.Steady holding) (moveAssign self otherId left r other) fun result p =>
      result.1.descriptor = other.descriptor ∧ result.2.descriptor = none ∧
        p.Steady (Function.update holding self none ∘ Equiv.swap otherId self) := by
  refine Hoare.Triple.bind (close_steady hSelf) fun r' => ?_
  refine Hoare.Triple.assume fun _ => ?_
  refine Hoare.Triple.bind (SysCall.handOver_steady hNe (Function.update_self ..) ?_) fun _ =>
    Hoare.Triple.pure fun _ h => ⟨rfl, rfl, h⟩
  rwa [Function.update_of_ne hNe.symm]

end CanReader

end Accounts

namespace Readers

variable {kernel : Kernel}

/-- What each reader has. -/
def descriptorOf (readers : Objects ObjectId CanReader) (id : ObjectId) : Option Int :=
  (readers.lookup id).bind CanReader.descriptor

theorem descriptorOf_insert (readers : Objects ObjectId CanReader) (id : ObjectId) (r : CanReader) :
    descriptorOf (readers.insert id r) = Function.update (descriptorOf readers) id r.descriptor := by
  funext id'
  unfold descriptorOf
  rw [UnorderedMap.lookup_insert_eq]
  by_cases hId : id' = id
  · rw [if_pos hId, hId, Function.update_self]
    rfl
  · rw [if_neg hId, Function.update_of_ne hId]

theorem descriptorOf_erase (readers : Objects ObjectId CanReader) (id : ObjectId) :
    descriptorOf (readers.erase id) = Function.update (descriptorOf readers) id none := by
  funext id'
  unfold descriptorOf
  by_cases hId : id' = id
  · rw [hId, Function.update_self, AList.lookup_erase]
    rfl
  · rw [Function.update_of_ne hId, AList.lookup_erase_ne hId]

theorem descriptorOf_of_lookup {readers : Objects ObjectId CanReader} {id : ObjectId} {r : CanReader}
    (h : readers.lookup id = some r) : descriptorOf readers id = r.descriptor := by
  simp [descriptorOf, h]

/-- What one reader had, another one has, in place of what it had itself. -/
theorem descriptorOf_moved {readers : Objects ObjectId CanReader} {id other : ObjectId}
    {r o o' : CanReader} (hNe : id ≠ other) (hOther : readers.lookup other = some o)
    (hr : r.descriptor = o.descriptor) (ho' : o'.descriptor = none) :
    descriptorOf ((readers.insert other o').insert id r) =
      Function.update (descriptorOf readers) id none ∘ Equiv.swap other id := by
  have hHas : Function.update (descriptorOf readers) id none other = o.descriptor := by
    rw [Function.update_of_ne hNe.symm, descriptorOf_of_lookup hOther]
  rw [← Ownership.update_eq_swap (Function.update_self ..), hHas, Function.update_comm hNe,
    Function.update_idem, descriptorOf_insert, descriptorOf_insert, hr, ho']

/-- The state of the program, between operations. -/
def Invariant (s : Readers) : Prop := s.process.Steady (descriptorOf s.readers)

/-- A reader that keeps its descriptor. -/
theorem steady_kept {p : Process} {readers : Objects ObjectId CanReader}
    (h : p.Steady (descriptorOf readers)) {id : ObjectId} {r r' : CanReader}
    (hHas : descriptorOf readers id = r.descriptor) (hFd : r'.fd = r.fd) :
    p.Steady (Function.update (descriptorOf readers) id r'.descriptor) := by
  have hKept : r'.descriptor = descriptorOf readers id := by
    rw [hHas, CanReader.descriptor, CanReader.descriptor, hFd]
  rwa [Function.update_eq_self_iff.mpr hKept]

theorem call_invariant {s : Readers} (h : s.Invariant) (id : ObjectId)
    {f : CanReader → Sys CanReader}
    (hf : ∀ r, descriptorOf s.readers id = r.descriptor →
      Sys.Triple (·.Steady (descriptorOf s.readers)) (f r) fun r' p =>
        p.Steady (Function.update (descriptorOf s.readers) id r'.descriptor)) :
    (s.call id f).Invariant := by
  unfold call
  cases hLookup : s.readers.lookup id with
  | none => exact h
  | some r =>
    have hAfter := (hf r (descriptorOf_of_lookup hLookup)).eval h
    rwa [← descriptorOf_insert] at hAfter

theorem construct_invariant {s : Readers} (h : s.Invariant) (id : ObjectId) :
    (s.step kernel (.construct id)).Invariant := by
  unfold step Objects.construct
  dsimp only
  split
  · exact h
  · rename_i hNone
    have hIdle : descriptorOf s.readers id = none := by
      simp [descriptorOf, Option.not_isSome_iff_eq_none.mp hNone]
    have hSame : descriptorOf (s.readers.insert id CanReader.fresh) = descriptorOf s.readers := by
      rw [descriptorOf_insert]
      exact Function.update_eq_self_iff.mpr hIdle.symm
    unfold Invariant
    rwa [hSame]

theorem moveConstruct_invariant {s : Readers} (h : s.Invariant) (id other : ObjectId)
    (left : ByteString) : (s.step kernel (.moveConstruct id other left)).Invariant := by
  unfold step
  dsimp only
  split
  · rename_i o hId hOther
    have hNe : id ≠ other := by
      rintro rfl
      rw [hId] at hOther
      contradiction
    have hIdle : descriptorOf s.readers id = none := by simp [descriptorOf, hId]
    obtain ⟨hr, ho', hAfter⟩ := (CanReader.moveConstruct_steady hNe hIdle
      (descriptorOf_of_lookup hOther) left).eval h
    unfold Invariant
    rwa [descriptorOf_moved hNe hOther hr ho', Function.update_eq_self_iff.mpr hIdle.symm]
  · exact h

theorem moveAssign_invariant {s : Readers} (h : s.Invariant) (id other : ObjectId)
    (left : ByteString) : (s.step kernel (.moveAssign id other left)).Invariant := by
  unfold step
  dsimp only
  split
  · exact h
  · rename_i hNe
    split
    · rename_i r o hId hOther
      obtain ⟨hr, ho', hAfter⟩ := (CanReader.moveAssign_steady hNe (descriptorOf_of_lookup hId)
        (descriptorOf_of_lookup hOther) left).eval h
      rwa [← descriptorOf_moved hNe hOther hr ho'] at hAfter
    · exact h

/-- A destructor closes what the reader has. -/
theorem destroy_invariant {s : Readers} (h : s.Invariant) (id : ObjectId) :
    (s.step kernel (.destroy id)).Invariant := by
  unfold step
  dsimp only
  split
  · exact h
  · rename_i r hLookup
    have hAfter := (CanReader.close_steady (descriptorOf_of_lookup hLookup)).eval h
    unfold Invariant
    rw [descriptorOf_erase]
    exact hAfter.2

theorem step_invariant (hFresh : kernel.SocketFresh) {s : Readers} (h : s.Invariant) (op : ReaderOp) :
    (s.step kernel op).Invariant := by
  cases op with
  | construct id => exact construct_invariant h id
  | openInterface id interfaceName =>
    refine call_invariant h id fun r hHas => ?_
    refine Hoare.Triple.bind (CanReader.openInterface_steady hFresh hHas interfaceName) fun result =>
      Hoare.Triple.pure fun p hOpened => ?_
    simpa using hOpened.1
  | close id =>
    refine call_invariant h id fun r hHas => (CanReader.close_steady hHas).post ?_
    rintro r' p ⟨hNone, hSteady⟩
    rwa [hNone]
  | readFrame id =>
    refine call_invariant h id fun r hHas => ?_
    refine Hoare.Triple.bind CanReader.readFrame_steady fun result =>
      Hoare.Triple.pure fun p hSteady => ?_
    exact steady_kept hSteady.2 hHas hSteady.1
  | clearError id =>
    exact call_invariant h id fun r hHas => Hoare.Triple.pure fun p hSteady =>
      steady_kept hSteady hHas rfl
  | moveConstruct id other left => exact moveConstruct_invariant h id other left
  | moveAssign id other left => exact moveAssign_invariant h id other left
  | destroy id => exact destroy_invariant h id

theorem run_invariant (hFresh : kernel.SocketFresh) (ops : List ReaderOp) :
    (run kernel ops).Invariant := by
  induction ops using List.reverseRecOn with
  | nil =>
    refine ⟨⟨Ownership.legal_nil, fun id fd => ?_, fun fd => ?_⟩, fun id fd hHas => ?_⟩
    · simp [run, initial, descriptorOf]
    · simp [run, initial, descriptorOf]
    · simp [run, initial, descriptorOf] at hHas
  | append_singleton ops op ih =>
    unfold run
    rw [List.foldl_concat]
    exact step_invariant hFresh ih op

/-- What holds of the descriptors between operations. -/
structure Safe (kernel : Kernel) (s : Readers) : Prop where
  /-- No two readers have the same descriptor. -/
  exclusive : ∀ id id' r r', s.readers.lookup id = some r → s.readers.lookup id' = some r' →
    r.isOpen = true → r'.fd = r.fd → id' = id
  /-- What is open is had by a reader, and what a reader has is open. -/
  held : ∀ fd, (s.process.sockets.lookup fd).isSome ↔
    ∃ id r, s.readers.lookup id = some r ∧ r.isOpen = true ∧ r.fd = fd
  /-- A descriptor is closed by the reader that has it, and by no other. -/
  legal : Ownership.Legal s.process.ledger
  /-- At any time a descriptor has been closed once for each time it has been opened, but for the
  last time while it is had. -/
  closedOnce : ∀ past, past <+: s.process.ledger → ∀ fd,
    past.countP (Ownership.Event.acquires fd) = past.countP (Ownership.Event.releases fd) +
      if (Ownership.owner past fd).isSome then 1 else 0
  /-- The ledger says who has what. -/
  owner : ∀ id r, s.readers.lookup id = some r → r.isOpen = true →
    Ownership.owner s.process.ledger r.fd = some id
  /-- A reader that is open has a socket that is bound and does not block. -/
  ready : ∀ id r, s.readers.lookup id = some r → r.isOpen = true →
    ∃ sock, s.process.sockets.lookup r.fd = some sock ∧ sock.Ready
  /-- A reader that cannot be opened is closed, and has no interface. -/
  failedOpen : ∀ id r interfaceName, s.readers.lookup id = some r →
    ∀ r', ((r.openInterface kernel id interfaceName).eval s.process).1 = (r', false) →
      r'.isOpen = false ∧ r'.interfaceName = []

theorem descriptorOf_eq_some {readers : Objects ObjectId CanReader} {id : ObjectId} {fd : Int} :
    descriptorOf readers id = some fd ↔
      ∃ r, readers.lookup id = some r ∧ r.isOpen = true ∧ r.fd = fd := by
  simp only [descriptorOf, CanReader.descriptor, CanReader.isOpen, Option.bind_eq_some_iff,
    Option.ite_none_right_eq_some, Option.some.injEq, decide_eq_true_eq]

theorem Invariant.safe (hFresh : kernel.SocketFresh) {s : Readers} (h : s.Invariant) :
    Safe kernel s where
  exclusive id id' r r' hr hr' hOpen hFd := by
    have hOpen' : r'.isOpen = true := by rwa [CanReader.isOpen, hFd]
    exact h.accounts.agrees.exclusive (descriptorOf_eq_some.mpr ⟨r', hr', hOpen', hFd⟩)
      (descriptorOf_eq_some.mpr ⟨r, hr, hOpen, rfl⟩)
  held fd := (h.accounts.sockets fd).trans (exists_congr fun _ => descriptorOf_eq_some)
  legal := h.accounts.legal
  closedOnce past hPast fd := (h.accounts.legal.of_prefix hPast).count fd
  owner id r hr hOpen := (h.accounts.agrees id r.fd).mp (descriptorOf_eq_some.mpr ⟨r, hr, hOpen, rfl⟩)
  ready id r hr hOpen := h.ready id r.fd (descriptorOf_eq_some.mpr ⟨r, hr, hOpen, rfl⟩)
  failedOpen id r interfaceName hr r' hFailed := by
    have hOpened := (CanReader.openInterface_steady hFresh (descriptorOf_of_lookup hr)
      interfaceName).eval h
    rw [hFailed] at hOpened
    simpa using hOpened.2

/-- No run of a program over readers leaks a descriptor or closes one twice. -/
theorem run_safe (hFresh : kernel.SocketFresh) (ops : List ReaderOp) :
    Safe kernel (run kernel ops) :=
  (run_invariant hFresh ops).safe hFresh

/-- A reader is opened and moved from, and cannot be opened again, at `bind`. -/
def bindFails : Kernel where
  socket n sockets := if (sockets.lookup (n : Int)).isSome then -1 else n
  ioctl _ _ := some 3
  bind n := n < 6
  setsockopt _ := true
  fcntlGetfl _ := some 2
  fcntlSetfl _ := true
  recvmsg _ := .failed CanReader.EAGAIN
  clockGettime _ := (0, 0)

def openMoveOpen : List ReaderOp :=
  [.construct 0, .openInterface 0 "can0", .moveConstruct 1 0 "", .openInterface 0 "can1", .readFrame 1,
    .destroy 1]

theorem run_safe_sample : (run bindFails openMoveOpen).process.ledger =
      [.acquired 0 0, .handedOver 0 1 0, .acquired 0 6, .released 0 6, .released 1 0] ∧
    Safe bindFails (run bindFails openMoveOpen) := by
  refine ⟨by rfl, run_safe (fun n sockets hFd => ?_) openMoveOpen⟩
  dsimp only [bindFails] at hFd ⊢
  split at hFd
  · omega
  · rename_i hNone
    rw [if_neg hNone]
    exact Option.not_isSome_iff_eq_none.mp hNone

end Readers

end VehicleCanDecoder
