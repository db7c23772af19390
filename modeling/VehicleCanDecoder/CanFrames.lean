import VehicleCanDecoder.BeyondDlc

/-! What `CanFrame` documents of itself, for the frames of its two producers.  The node clamps the
data length and passes the identifier on as it is; the reader masks the identifier and passes the
data length on as it is.  Both copy and zero the payload by the clamped length. -/

namespace VehicleCanDecoder

/-- The invariant of a frame that was made from a source payload: an identifier without flag bits, a
data length of at most eight, the bytes of the source below it and zeros from there on. -/
structure CanFrame.Valid (frame : CanFrame) (source : Payload) : Prop where
  id : frame.id.toNat ≤ 0x1FFFFFFF
  dlc : frame.dlc.toNat ≤ 8
  copied : Payload.AgreeUpTo frame.dlc.toNat frame.data source
  zeroed : ∀ i (_ : i < 8), frame.dlc.toNat ≤ i → frame.data[i] = 0

/-- The format of a frame is a flag in its identifier. -/
def RawFrame.isStandard (raw : RawFrame) : Bool := raw.canId &&& 0x80000000 = 0

/-- The payload of both producers. -/
theorem copyN_zeros_valid (source : Payload) {n : Nat} (h : n ≤ 8) :
    Payload.AgreeUpTo n (Payload.copyN source n h Payload.zeros) source ∧
      ∀ i (_ : i < 8), n ≤ i → (Payload.copyN source n h Payload.zeros)[i] = 0 := by
  constructor
  · intro i hi hCopied
    simp [Payload.copyN, hCopied]
  · intro i hi hBeyond
    have hNot : ¬ i < n := by omega
    simp [Payload.copyN, Payload.zeros, hNot]

namespace VehicleCanNode

/-- The node makes a valid frame just from an identifier without flag bits. -/
theorem toCanFrame_valid_iff (msg : Frame) :
    (toCanFrame msg).Valid msg.data ↔ msg.id.toNat ≤ 0x1FFFFFFF := by
  constructor
  · exact fun h => h.id
  · intro hId
    obtain ⟨hCopied, hZeroed⟩ := copyN_zeros_valid msg.data (clampDlc_le msg.dlc)
    refine ⟨hId, clampDlc_le msg.dlc, fun i hi hBelow => ?_, fun i hi hBeyond => ?_⟩
    · simp only [toCanFrame_data]
      exact hCopied i hi hBelow
    · simp only [toCanFrame_data]
      exact hZeroed i hi hBeyond

end VehicleCanNode

namespace CanReader

/-- The invariant of a frame that was read: the identifier of a standard frame has eleven bits. -/
structure ReadValid (raw : RawFrame) (frame : CanFrame) : Prop where
  valid : frame.Valid raw.data
  standard : raw.isStandard = true → frame.id.toNat ≤ 0x7FF

theorem and_mask_le (id mask : UInt32) : (id &&& mask).toNat ≤ mask.toNat := by
  rw [UInt32.toNat_and]
  exact Nat.and_le_right

theorem toCanFrame_id_le (raw : RawFrame) (timestamp : Double) :
    (toCanFrame raw timestamp).id.toNat ≤ 0x1FFFFFFF ∧
      (raw.isStandard = true → (toCanFrame raw timestamp).id.toNat ≤ 0x7FF) := by
  unfold toCanFrame RawFrame.isStandard
  by_cases hFlag : raw.canId &&& 0x80000000 = 0
  · have hStandard : (raw.canId &&& 0x7FF).toNat ≤ 0x7FF := and_mask_le raw.canId 0x7FF
    simp only [hFlag, ne_eq, not_true_eq_false, if_false]
    exact ⟨by omega, fun _ => hStandard⟩
  · have hExtended : (raw.canId &&& 0x1FFFFFFF).toNat ≤ 0x1FFFFFFF :=
      and_mask_le raw.canId 0x1FFFFFFF
    simp only [hFlag, ne_eq, not_false_eq_true, if_true, decide_false]
    exact ⟨hExtended, fun h => by contradiction⟩

/-- The reader makes a valid frame just from a data length of at most eight. -/
theorem toCanFrame_valid_iff (raw : RawFrame) (timestamp : Double) :
    ReadValid raw (toCanFrame raw timestamp) ↔ raw.canDlc.toNat ≤ 8 := by
  obtain ⟨hId, hStandard⟩ := toCanFrame_id_le raw timestamp
  constructor
  · exact fun h => h.valid.dlc
  · intro hDlc
    have hClamped : clampDlc raw.canDlc = raw.canDlc.toNat := if_pos hDlc
    obtain ⟨hCopied, hZeroed⟩ := copyN_zeros_valid raw.data (clampDlc_le raw.canDlc)
    refine ⟨⟨hId, hDlc, fun i hi hBelow => ?_, fun i hi hBeyond => ?_⟩, hStandard⟩
    · simp only [toCanFrame_data]
      exact hCopied i hi (hClamped ▸ hBelow)
    · simp only [toCanFrame_data]
      exact hZeroed i hi (hClamped.trans_le hBeyond)

end CanReader

/-- The node hands on a valid frame exactly for an identifier without flag bits, and the reader
returns one exactly for a data length of at most eight. -/
theorem canFrame_valid_iff (msg : Frame) (kernel : Kernel) (r : CanReader) (p : Process) :
    ((VehicleCanNode.toCanFrame msg).Valid msg.data ↔ msg.id.toNat ≤ 0x1FFFFFFF) ∧
    ∀ frame, ((r.readFrame kernel).eval p).1.2 = some frame →
      ∃ n raw timeval, kernel.recvmsg p.calls = .bytes n raw timeval ∧
        (CanReader.ReadValid raw frame ↔ raw.canDlc.toNat ≤ 8) := by
  refine ⟨VehicleCanNode.toCanFrame_valid_iff msg, fun frame hFrame => ?_⟩
  by_cases hClosed : r.fd < 0
  · rw [CanReader.readFrame_closed kernel hClosed] at hFrame
    contradiction
  · have hRead := CanReader.readFrame_open kernel hClosed p
    cases hReceived : kernel.recvmsg p.calls with
    | failed errno =>
      rw [hReceived] at hRead
      rw [hRead] at hFrame
      contradiction
    | bytes n raw timeval =>
      rw [hReceived] at hRead
      obtain ⟨timestamp, hResult⟩ := hRead
      rw [hResult] at hFrame
      by_cases hShort : n < CanReader.sizeofCanFrame
      · simp [hShort] at hFrame
      · simp only [if_neg hShort, Option.some.injEq] at hFrame
        subst hFrame
        exact ⟨n, raw, timeval, rfl, CanReader.toCanFrame_valid_iff raw timestamp⟩

/-- A message with a flag bit in its identifier. -/
def flaggedFrame : Frame := ⟨⟨⟨5, 0⟩, ""⟩, 0x80000123, false, true, false, 8, Payload.zeros⟩

/-- A reading with a data length of nine. -/
def longRead : Kernel where
  socket n _ := n
  ioctl _ _ := none
  bind _ := true
  setsockopt _ := true
  fcntlGetfl _ := none
  fcntlSetfl _ := true
  recvmsg _ := .bytes 16 ⟨256, 9, Payload.zeros⟩ none
  clockGettime _ := (0, 0)

/-- The node passes the flag bit on, and the reader the length. -/
theorem canFrame_invalid :
    ¬ (VehicleCanNode.toCanFrame flaggedFrame).Valid flaggedFrame.data ∧
      ∃ frame, ((CanReader.readFrame longRead ⟨3, 0, ""⟩).eval ⟨0, ∅, []⟩).1.2 = some frame ∧
        frame.dlc = 9 ∧ ¬ frame.Valid Payload.zeros := by
  refine ⟨fun h => absurd h.id (by decide), _, rfl, rfl, fun h => absurd h.dlc (by decide)⟩

end VehicleCanDecoder
