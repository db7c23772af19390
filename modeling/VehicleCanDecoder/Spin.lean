import VehicleCanDecoder.Tally

/-! `main`: the callbacks of a node, one after the other, until one of them throws.  A frame
callback can only throw for its stamp, before the frame is counted; then the process ends. -/

namespace VehicleCanDecoder

/-- What the executor calls, with the orders of the loops and the readings of the ROS clock. -/
inductive Callback
  | canFrame (order : HashOrder) (msg : Frame)
  | diagnosticsTimer (checkOrder listOrder : HashOrder) (now : Stamp)
  | schemaTimer (order : HashOrder) (now : Stamp)

namespace VehicleCanNode

variable (E : Env)

def callback (n : VehicleCanNode) : Callback → Except StdException (VehicleCanNode × List Effect)
  | .canFrame order msg => n.onCanFrame E order msg
  | .diagnosticsTimer checkOrder listOrder now =>
    .ok (n.onDiagnosticsTimer E checkOrder listOrder now)
  | .schemaTimer order now => .ok (n, [.publishSchema (n.publishSchema order now)])

/-- `rclcpp::spin`: an exception of a callback passes through. -/
def spin (n : VehicleCanNode) : List Callback → Except StdException VehicleCanNode
  | [] => .ok n
  | c :: rest => do
    let (n', _) ← n.callback E c
    n'.spin rest

/-- `main`, which is shut down after the callbacks. -/
def main (overrides : Overrides) (order : HashOrder) (now : Stamp) (callbacks : List Callback) :
    Nat :=
  let run : Except StdException VehicleCanNode := do
    let (n, _) ← construct E overrides order now
    n.spin E callbacks
  match run with
  | .ok _ => 0
  | .error _ => 1

/-- The frame that `on_can_frame` hands on; none where it leaves an array. -/
def Checked.toCanFrame (msg : Frame) : Option CanFrame := do
  let dlc := clampDlc msg.dlc
  let copied ← Payload.Checked.copyN msg.data dlc.toNat Payload.zeros
  let data ← if dlc < 8 then Payload.Checked.fillFrom copied dlc.toNat 0 else some copied
  some { id := msg.id, dlc, data, timestamp := 0 }

theorem Checked.toCanFrame_eq (msg : Frame) :
    Checked.toCanFrame msg = some (VehicleCanNode.toCanFrame msg) := by
  have hLe := clampDlc_le msg.dlc
  unfold Checked.toCanFrame VehicleCanNode.toCanFrame
  simp only [Payload.Checked.copyN, Payload.Checked.fillFrom, dif_pos hLe, Option.bind_eq_bind,
    Option.bind_some]
  split <;> rfl

/-- The callback stays in the arrays, follows no bad pointer, and returns with the frame counted. -/
structure Handled (order : HashOrder) (n : VehicleCanNode) (msg : Frame) : Prop where
  inBounds : Checked.toCanFrame msg = some (toCanFrame msg)
  pointers : (DbcDecoder.Checked.decode n.decoder (toCanFrame msg).id (toCanFrame msg).data
    (toCanFrame msg).dlc).isSome
  returns : ∃ n' effects, n.onCanFrame E order msg = .ok (n', effects) ∧
    n'.framesReceived = n.framesReceived + 1

/-- Every frame of a run is reached, and handled. -/
def NeverDown (start : VehicleCanNode) (callbacks : List Callback) : Prop :=
  ∀ before order msg after, callbacks = before ++ .canFrame order msg :: after →
    ∃ n, start.spin E before = .ok n ∧ Handled E order n msg

variable {E}

theorem processFrame_framesReceived (order : HashOrder) (n : VehicleCanNode) (frame : CanFrame)
    (stamp : Time) :
    (n.processFrame E order frame stamp).1.framesReceived = n.framesReceived + 1 := by
  have hReceived := congrArg Tally.received (processFrame_tally (E := E) order n frame stamp)
  cases hOutcome : n.outcome E frame <;> rw [hOutcome] at hReceived <;> exact hReceived

/-- A frame is handled unless its stamp makes `rclcpp::Time` throw. -/
theorem handled_iff_sec (hTime : E.rclcpp.TimeDocumented) {n : VehicleCanNode}
    (hOwns : ∃ network, n.decoder.Owns network) (order : HashOrder) (msg : Frame) :
    Handled E order n msg ↔ 0 ≤ msg.header.stamp.sec.toInt := by
  constructor
  · rintro ⟨-, -, n', effects, hOk, -⟩
    by_contra hSec
    obtain ⟨e, he⟩ := (hTime.throws _).mpr (not_le.mp hSec)
    simp [onCanFrame, he, Except.map] at hOk
  · intro hSec
    obtain ⟨t, ht⟩ := hTime.exists_time hSec
    have hOk : n.onCanFrame E order msg = .ok (n.processFrame E order (toCanFrame msg) t) := by
      rw [onCanFrame, ht]
      rfl
    refine ⟨Checked.toCanFrame_eq msg, ?_, _, _, hOk, processFrame_framesReceived order n _ t⟩
    rw [DbcDecoder.Checked.decode_eq fun _ => hOwns]
    rfl

theorem Constructed.owns (hDeclare : E.rclcpp.DeclareDocumented) {overrides : Overrides}
    {n : VehicleCanNode} (h : Constructed E overrides n) : ∃ network, n.decoder.Owns network := by
  obtain ⟨order, l, hConfigured, rfl⟩ := h.configured hDeclare
  obtain ⟨network, -, hLoad⟩ := hConfigured.decoder
  exact ⟨network, DbcDecoder.owns_of_load hLoad⟩

/-! ### Whole runs -/

/-- A callback that returns has processed a frame, checked the timeouts or published the schema. -/
theorem callback_cases {n n' : VehicleCanNode} {effects : List Effect} {c : Callback}
    (h : n.callback E c = .ok (n', effects)) :
    (∃ order msg stamp, c = .canFrame order msg ∧ E.rclcpp.time msg.header.stamp = .ok stamp ∧
        n.processFrame E order (toCanFrame msg) stamp = (n', effects)) ∨
      (∃ checkOrder listOrder now, c = .diagnosticsTimer checkOrder listOrder now ∧
        n.onDiagnosticsTimer E checkOrder listOrder now = (n', effects)) ∨
      ∃ order now, c = .schemaTimer order now ∧ n' = n ∧
        effects = [.publishSchema (n.publishSchema order now)] := by
  cases c with
  | canFrame order msg =>
    change n.onCanFrame E order msg = _ at h
    unfold onCanFrame at h
    cases hTime : E.rclcpp.time msg.header.stamp with
    | error e =>
      rw [hTime] at h
      contradiction
    | ok stamp =>
      rw [hTime] at h
      exact .inl ⟨order, msg, stamp, rfl, hTime, Except.ok.inj h⟩
  | diagnosticsTimer checkOrder listOrder now =>
    exact .inr (.inl ⟨checkOrder, listOrder, now, rfl, Except.ok.inj h⟩)
  | schemaTimer order now =>
    obtain ⟨rfl, rfl⟩ := Prod.mk.inj (Except.ok.inj h)
    exact .inr (.inr ⟨order, now, rfl, rfl, rfl⟩)

theorem callback_setup {n n' : VehicleCanNode} {effects : List Effect} {c : Callback}
    (h : n.callback E c = .ok (n', effects)) : SameSetup n n' := by
  obtain ⟨order, msg, stamp, -, -, hFrame⟩ | ⟨checkOrder, listOrder, now, -, hTimer⟩ |
    ⟨order, now, -, rfl, -⟩ := callback_cases h
  · have hSetup := processFrame_setup (E := E) order n (toCanFrame msg) stamp
    rwa [hFrame] at hSetup
  · obtain ⟨rfl, -⟩ := Prod.mk.inj hTimer
    exact ⟨rfl, rfl, rfl, rfl, rfl⟩
  · exact SameSetup.refl n'

theorem spin_setup {start n : VehicleCanNode} {callbacks : List Callback}
    (h : start.spin E callbacks = .ok n) : SameSetup start n := by
  induction callbacks generalizing start with
  | nil =>
    obtain rfl := Except.ok.inj h
    exact SameSetup.refl start
  | cons c rest ih =>
    unfold spin at h
    cases hCall : start.callback E c with
    | error e => simp [hCall, bind, Except.bind] at h
    | ok r =>
      rw [hCall] at h
      exact (callback_setup hCall).trans (ih h)

/-- No stamp of a frame is before the epoch. -/
def StampsSinceEpoch (callbacks : List Callback) : Prop :=
  ∀ order msg, Callback.canFrame order msg ∈ callbacks → 0 ≤ msg.header.stamp.sec.toInt

theorem spin_ok (hTime : E.rclcpp.TimeDocumented) (start : VehicleCanNode)
    (callbacks : List Callback) (h : StampsSinceEpoch callbacks) :
    ∃ n, start.spin E callbacks = .ok n := by
  induction callbacks generalizing start with
  | nil => exact ⟨start, rfl⟩
  | cons c rest ih =>
    have hRest : StampsSinceEpoch rest := fun order msg hMem => h order msg (.tail _ hMem)
    have hCall : ∃ r, start.callback E c = .ok r := by
      cases c with
      | canFrame order msg =>
        obtain ⟨t, ht⟩ := hTime.exists_time (h order msg (.head _))
        exact ⟨_, by rw [callback, onCanFrame, ht]; rfl⟩
      | diagnosticsTimer checkOrder listOrder now => exact ⟨_, rfl⟩
      | schemaTimer order now => exact ⟨_, rfl⟩
    obtain ⟨r, hr⟩ := hCall
    obtain ⟨n, hn⟩ := ih r.1 hRest
    refine ⟨n, ?_⟩
    unfold spin
    rw [hr]
    exact hn

/-- A frame is handled in every state, and a run handles all of its frames, exactly when no stamp is
before the epoch. -/
theorem neverDown_iff (hTime : E.rclcpp.TimeDocumented) (hDeclare : E.rclcpp.DeclareDocumented)
    {overrides : Overrides} {start : VehicleCanNode} (hStart : Constructed E overrides start) :
    (∀ n out, Runs E start n out → ∀ order msg,
      Handled E order n msg ↔ 0 ≤ msg.header.stamp.sec.toInt) ∧
    ∀ callbacks, NeverDown E start callbacks ↔ StampsSinceEpoch callbacks := by
  have hOwns : ∀ n, SameSetup start n → ∃ network, n.decoder.Owns network := by
    intro n hSetup
    rw [hSetup.decoder]
    exact hStart.owns hDeclare
  refine ⟨fun n out hRuns => handled_iff_sec hTime (hOwns n hRuns.setup), fun callbacks => ?_⟩
  constructor
  · intro hNever order msg hMem
    obtain ⟨before, after, hSplit⟩ := List.append_of_mem hMem
    obtain ⟨n, hn, hHandled⟩ := hNever before order msg after hSplit
    exact (handled_iff_sec hTime (hOwns n (spin_setup hn)) order msg).mp hHandled
  · rintro hStamps before order msg after rfl
    obtain ⟨n, hn⟩ := spin_ok hTime start before fun order' msg' hMem =>
      hStamps order' msg' (List.mem_append_left _ hMem)
    exact ⟨n, hn, (handled_iff_sec hTime (hOwns n (spin_setup hn)) order msg).mpr
      (hStamps order msg (by simp))⟩

/-- A frame that is stamped before the epoch. -/
def earlyFrame : Frame where
  header := ⟨⟨-1, 0⟩, ""⟩
  id := 256
  isRtr := false
  isExtended := false
  isError := false
  dlc := 8
  data := Payload.zeros

/-- It ends the process. -/
theorem earlyFrame_brings_down :
    let E := sampleEnv (sampleNetwork 256)
    let n := sampleNode (sampleNetwork 256) sampleOverrides
    Constructed E sampleOverrides n ∧
      main E sampleOverrides .listed ⟨0, 0⟩ [.canFrame .listed earlyFrame] = 1 ∧
      ¬ Handled E .listed n earlyFrame ∧ ¬ NeverDown E n [.canFrame .listed earlyFrame] := by
  intro E n
  have hNot : ¬ Handled E .listed n earlyFrame := by
    rintro ⟨-, -, n', effects, hOk, -⟩
    have hThrows : n.onCanFrame E .listed earlyFrame =
        .error ⟨"cannot store a negative time point in rclcpp::Time"⟩ := rfl
    rw [hThrows] at hOk
    contradiction
  refine ⟨⟨.listed, ⟨0, 0⟩, _, rfl⟩, rfl, hNot, fun hNever => ?_⟩
  obtain ⟨n', hn', hHandled⟩ := hNever [] .listed earlyFrame [] rfl
  obtain rfl := Except.ok.inj hn'
  exact hNot hHandled

theorem neverDown_iff_sample :
    let E := sampleEnv (sampleNetwork 256)
    let n := sampleNode (sampleNetwork 256) sampleOverrides
    let callbacks := [Callback.canFrame .listed { earlyFrame with header := ⟨⟨5, 0⟩, ""⟩ }]
    NeverDown E n callbacks ↔ StampsSinceEpoch callbacks := by
  intro E n callbacks
  have hStart : Constructed E sampleOverrides n := ⟨.listed, ⟨0, 0⟩, _, rfl⟩
  exact (neverDown_iff Rclcpp.documented_time Rclcpp.documented_declare hStart).2 callbacks

end VehicleCanNode

end VehicleCanDecoder
