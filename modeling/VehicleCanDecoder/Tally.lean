import VehicleCanDecoder.Frames

/-! The diagnostic counters of the live node.  A frame counts as received, and as decoded or
unknown; each of its signals whose transform throws counts as a decode error. -/

namespace VehicleCanDecoder

/-- The counters. -/
structure Tally where
  received : Nat
  decoded : Nat
  unknown : Nat
  errors : Nat
  deriving DecidableEq

namespace Tally

def zero : Tally := ⟨0, 0, 0, 0⟩

/-- The counters after a frame, by the number of its signals that failed; none for a frame without
a message. -/
def count (t : Tally) : Option Nat → Tally
  | none => { t with received := t.received + 1, unknown := t.unknown + 1 }
  | some failed =>
    { t with
      received := t.received + 1
      decoded := t.decoded + 1
      errors := t.errors + failed }

/-- After some frames, the counters say how many there were of each kind, and the errors are the
failed signals of all of them. -/
theorem foldl_count (outcomes : List (Option Nat)) (t : Tally) :
    outcomes.foldl count t =
      { received := t.received + outcomes.length
        decoded := t.decoded + outcomes.countP Option.isSome
        unknown := t.unknown + outcomes.countP Option.isNone
        errors := t.errors + (outcomes.map (·.getD 0)).sum } := by
  induction outcomes generalizing t with
  | nil => rfl
  | cons outcome rest ih =>
    rw [List.foldl_cons, ih]
    cases outcome with
    | none =>
      simp [count]
      omega
    | some failed =>
      simp [count]
      omega

end Tally

namespace VehicleCanNode

def tally (n : VehicleCanNode) : Tally :=
  ⟨n.framesReceived, n.framesDecoded, n.framesUnknown, n.decodeErrors⟩

variable {E : Env}

/-- How many signals of a frame fail: those whose transform throws. -/
def failed (E : Env) (n : VehicleCanNode) (canId : UInt32) (decoded : List RawSignal) : Nat :=
  decoded.countP fun raw => ((n.path E).pass canId raw).isNone

/-- What a frame counts as. -/
def outcome (E : Env) (n : VehicleCanNode) (frame : CanFrame) : Option Nat :=
  (n.decoder.decode frame.id frame.data frame.dlc).map (n.failed E frame.id)

theorem SameSetup.outcome {n n' : VehicleCanNode} (h : SameSetup n n') (frame : CanFrame) :
    n'.outcome E frame = n.outcome E frame := by
  unfold VehicleCanNode.outcome
  rw [h.decoder]
  congr 1
  funext decoded
  unfold failed
  rw [h.path]

theorem processSignal_tally (canId : UInt32) (n : VehicleCanNode) (raw : RawSignal) :
    (processSignal E canId n raw).1.tally =
      { n.tally with
        errors := n.decodeErrors + if ((n.path E).pass canId raw).isNone then 1 else 0 } := by
  obtain ⟨t, -, ⟨hPass, name, what, hEq⟩ | ⟨r, hPass, -, hEq⟩ | ⟨r, hPass, -, hEq⟩⟩ :=
    processSignal_cases (E := E) canId n raw
  · rw [hEq, hPass]
    rfl
  · rw [hEq, hPass]
    rfl
  · rw [hEq, hPass]
    rfl

/-- The loop over the decoded signals counts the failed ones. -/
theorem gathered_tally (canId : UInt32) (n : VehicleCanNode) (decoded : List RawSignal) :
    (gathered canId n decoded E).tally =
      { n.tally with errors := n.decodeErrors + n.failed E canId decoded } := by
  unfold gathered failed
  generalize hPath : n.path E = path
  induction decoded generalizing n with
  | nil => rfl
  | cons raw rest ih =>
    have hSetup : ((processSignal E canId n raw).1).path E = path :=
      ((processSignal_setup canId n raw).path E).trans hPath
    have hErrors : (processSignal E canId n raw).1.decodeErrors =
        n.decodeErrors + if (path.pass canId raw).isNone then 1 else 0 := by
      rw [← hPath]
      exact congrArg Tally.errors (processSignal_tally canId n raw)
    show (Machine.run (processSignal E canId) (processSignal E canId n raw).1 rest).1.tally = _
    rw [ih _ hSetup, hErrors, processSignal_tally, List.countP_cons, hPath]
    simp only [Tally.mk.injEq, true_and]
    omega

theorem publishDecoded_tally (order : HashOrder) (n : VehicleCanNode) (canId : UInt32)
    (stamp : Time) (decoded : List RawSignal) :
    (n.publishDecoded E order canId stamp decoded).1.tally =
      { n.tally with errors := n.decodeErrors + n.failed E canId decoded } := by
  let header : Header := ⟨E.rclcpp.stamp stamp, ""⟩
  let after := gathered canId n decoded E
  have hGroups : (Machine.run (publishGroup header) after
      (after.frameSignals.items order)).1.tally = after.tally :=
    Machine.run_invariant (I := fun s : VehicleCanNode => s.tally = after.tally)
      (fun s entry h => h) rfl _
  have hFirehose : ∀ s : VehicleCanNode, (s.publishFirehose header).1.tally = s.tally := by
    intro s
    rcases publishFirehose_cases header s with h | ⟨topic, h⟩ <;> rw [h]
    rfl
  rw [← gathered_tally, ← hGroups]
  exact hFirehose _

/-- A frame counts as what it is. -/
theorem processFrame_tally (order : HashOrder) (n : VehicleCanNode) (frame : CanFrame)
    (stamp : Time) :
    (n.processFrame E order frame stamp).1.tally = n.tally.count (n.outcome E frame) := by
  unfold outcome
  cases h : n.decoder.decode frame.id frame.data frame.dlc with
  | none =>
    rw [processFrame_unknown order n frame stamp h]
    rfl
  | some decoded =>
    have hFailed : n.cleared.failed E frame.id decoded = n.failed E frame.id decoded := by
      unfold failed
      rw [(cleared_setup n).path]
    rw [processFrame_decoded order n frame stamp h, publishDecoded_tally, hFailed]
    rfl

theorem Constructed.tally {overrides : Overrides} {n : VehicleCanNode}
    (h : Constructed E overrides n) : n.tally = Tally.zero := by
  obtain ⟨order, declared, hSetUp⟩ := h.setUp
  obtain ⟨l, names, rfl⟩ := setUp_ofLoaded hSetUp
  rfl

end VehicleCanNode

end VehicleCanDecoder
