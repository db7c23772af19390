import VehicleCanDecoder.Descriptors

/-! The error flag of a reader.  A read of an open reader starts by clearing the flag, so that the
flag tells of this read; a read of a closed one returns before that, and the flag still tells of an
earlier read.  The flag goes with the reader in a move, and only an `open`, a `clear_error` or a
move takes it away. -/

namespace VehicleCanDecoder

/-- `recvmsg` sets `errno` when it fails. -/
def Kernel.ErrnoSet (kernel : Kernel) : Prop :=
  ∀ n errno, kernel.recvmsg n = .failed errno → errno ≠ 0

namespace CanReader

def hasError (r : CanReader) : Bool := r.lastErrno ≠ 0

def lastError (r : CanReader) : Int := r.lastErrno

variable (kernel : Kernel)

/-- The socket error that a read hits.  A closed reader makes no call, and an empty buffer is no
error. -/
def readError (r : CanReader) (p : Process) : Option Int :=
  if r.fd < 0 then none
  else
    match kernel.recvmsg p.calls with
    | .failed errno => if errno = EAGAIN then none else some errno
    | .bytes .. => none

/-- The flag of `r'` tells of the read of `r`. -/
structure Tells (r : CanReader) (p : Process) (r' : CanReader) : Prop where
  hasError : r'.hasError = true ↔ (readError kernel r p).isSome
  lastError : ∀ errno, readError kernel r p = some errno → r'.lastError = errno

variable {kernel}

theorem not_tells_closed_iff {r : CanReader} (hClosed : r.fd < 0) (p : Process) :
    Tells kernel r p r ↔ r.hasError = false := by
  have hNone : readError kernel r p = none := if_pos hClosed
  constructor
  · intro h
    simpa [hNone] using h.hasError
  · intro hClear
    exact ⟨by simp [hNone, hClear], by simp [hNone]⟩

/-- A read that hit no error leaves the flag clear. -/
theorem tells_of_no_error {r : CanReader} {p : Process} (h : readError kernel r p = none) :
    Tells kernel r p { r with lastErrno := 0 } :=
  ⟨by simp [h, CanReader.hasError], by simp [h]⟩

theorem readFrame_tells_open (hErrno : kernel.ErrnoSet) {r : CanReader} (hOpen : ¬ r.fd < 0)
    (p : Process) : Tells kernel r p ((r.readFrame kernel).eval p).1.1 := by
  have hRead := readFrame_open kernel hOpen p
  cases hReceived : kernel.recvmsg p.calls with
  | failed errno =>
    rw [hReceived] at hRead
    rw [hRead]
    by_cases hAgain : errno = EAGAIN
    · have hNone : readError kernel r p = none := by simp [readError, hOpen, hReceived, hAgain]
      rw [if_pos hAgain]
      exact tells_of_no_error hNone
    · have hSome : readError kernel r p = some errno := by
        simp [readError, hOpen, hReceived, hAgain]
      have hNe := hErrno p.calls errno hReceived
      rw [if_neg hAgain]
      exact ⟨by simp [hSome, CanReader.hasError, hNe], fun errno' h =>
        Option.some.inj (hSome.symm.trans h)⟩
  | bytes n raw timeval =>
    rw [hReceived] at hRead
    obtain ⟨timestamp, hResult⟩ := hRead
    have hNone : readError kernel r p = none := by simp [readError, hOpen, hReceived]
    rw [hResult]
    exact tells_of_no_error hNone

/-- The flag tells of a read unless the reader is closed and the flag is set already. -/
theorem readFrame_tells_iff (hErrno : kernel.ErrnoSet) (r : CanReader) (p : Process) :
    Tells kernel r p ((r.readFrame kernel).eval p).1.1 ↔ r.isOpen = true ∨ r.hasError = false := by
  by_cases hClosed : r.fd < 0
  · have hOpen : r.isOpen = false := by
      unfold isOpen
      exact decide_eq_false (by omega)
    rw [readFrame_closed kernel hClosed, not_tells_closed_iff hClosed, hOpen]
    simp
  · have hOpen : r.isOpen = true := by
      unfold isOpen
      exact decide_eq_true (by omega)
    exact iff_of_true (readFrame_tells_open hErrno hClosed p) (.inl hOpen)

end CanReader

namespace Readers

variable (kernel : Kernel)

/-- After every read of a run, the flag of the reader tells of that read. -/
def FlagsTell (ops : List ReaderOp) : Prop :=
  ∀ before id after, ops = before ++ .readFrame id :: after →
    ∀ r, (run kernel before).readers.lookup id = some r →
      ∃ r', (run kernel (before ++ [.readFrame id])).readers.lookup id = some r' ∧
        CanReader.Tells kernel r (run kernel before).process r'

/-- Every reader that is read in a run is open, or its flag is clear. -/
def ReadsOpenOrClear (ops : List ReaderOp) : Prop :=
  ∀ before id after, ops = before ++ .readFrame id :: after →
    ∀ r, (run kernel before).readers.lookup id = some r → r.isOpen = true ∨ r.hasError = false

variable {kernel}

theorem step_readFrame_lookup {s : Readers} {id : ObjectId} {r : CanReader}
    (h : s.readers.lookup id = some r) : (s.step kernel (.readFrame id)).readers.lookup id =
      some ((r.readFrame kernel).eval s.process).1.1 := by
  have hMap : ((Prod.fst <$> r.readFrame kernel : Sys CanReader).eval s.process).1 =
      ((r.readFrame kernel).eval s.process).1.1 := by
    have hRun : (Prod.fst <$> r.readFrame kernel : Sys CanReader) s.process =
        EStateM.map Prod.fst (r.readFrame kernel) s.process := rfl
    unfold Sys.eval
    rw [hRun]
    unfold EStateM.map
    cases r.readFrame kernel s.process with
    | ok a p' => rfl
    | error e p' => exact nomatch e
  unfold step call
  simp only [h]
  rw [UnorderedMap.lookup_insert_eq, if_pos rfl, hMap]

/-- In a run, the flag tells of every read exactly when no closed reader whose flag is set is
read. -/
theorem flagsTell_iff (hErrno : kernel.ErrnoSet) (ops : List ReaderOp) :
    FlagsTell kernel ops ↔ ReadsOpenOrClear kernel ops := by
  have hStep : ∀ before id r, (run kernel before).readers.lookup id = some r →
      (run kernel (before ++ [.readFrame id])).readers.lookup id =
        some ((r.readFrame kernel).eval (run kernel before).process).1.1 := by
    intro before id r hLookup
    unfold run
    rw [List.foldl_concat]
    exact step_readFrame_lookup hLookup
  constructor
  · intro hTell before id after hSplit r hLookup
    obtain ⟨r', hAfter, hTells⟩ := hTell before id after hSplit r hLookup
    obtain rfl := Option.some.inj ((hStep before id r hLookup).symm.trans hAfter)
    exact (CanReader.readFrame_tells_iff hErrno r _).mp hTells
  · intro hClear before id after hSplit r hLookup
    exact ⟨_, hStep before id r hLookup,
      (CanReader.readFrame_tells_iff hErrno r _).mpr (hClear before id after hSplit r hLookup)⟩

/-! ### Samples -/

/-- The network is down: every `recvmsg` fails with `ENETDOWN`. -/
def networkDown : Kernel where
  socket n sockets := if (sockets.lookup (n : Int)).isSome then -1 else n
  ioctl _ _ := some 3
  bind _ := true
  setsockopt _ := true
  fcntlGetfl _ := some 2
  fcntlSetfl _ := true
  recvmsg _ := .failed 100
  clockGettime _ := (0, 0)

theorem networkDown_errnoSet : networkDown.ErrnoSet := by
  intro n errno h
  obtain rfl : (100 : Int) = errno := Received.failed.inj h
  decide

theorem flagsTell_iff_sample : FlagsTell networkDown
    [.construct 0, .openInterface 0 "can0", .readFrame 0, .close 0, .clearError 0, .readFrame 0] ↔
      ReadsOpenOrClear networkDown
        [.construct 0, .openInterface 0 "can0", .readFrame 0, .close 0, .clearError 0,
          .readFrame 0] :=
  flagsTell_iff networkDown_errnoSet _

/-- A read that fails, a `close`, and a read of the closed reader: the flag is still set. -/
theorem closed_reader_tells_old_error :
    ¬ FlagsTell networkDown
      [.construct 0, .openInterface 0 "can0", .readFrame 0, .close 0, .readFrame 0] := by
  intro hTell
  obtain ⟨r', hAfter, hTells⟩ := hTell
    [.construct 0, .openInterface 0 "can0", .readFrame 0, .close 0] 0 [] rfl ⟨-1, 100, "can0"⟩ rfl
  obtain rfl : (⟨-1, 100, "can0"⟩ : CanReader) = r' := Option.some.inj hAfter
  exact absurd (hTells.hasError.mp rfl) (by decide)

end Readers

end VehicleCanDecoder
