import VehicleCanDecoder.Spin

/-! What the diagnostics report of a run.  The frames of a run split into decoded and unknown ones.
The decode errors are documented to count frames, and count signals: a frame with several failing
signals counts as often. -/

namespace VehicleCanDecoder

/-- The frame that a callback hands on. -/
def Callback.frame : Callback → Option CanFrame
  | .canFrame _ msg => some (VehicleCanNode.toCanFrame msg)
  | _ => none

/-- A frame that matched a message, and of which at least one signal failed. -/
def failsSome (outcome : Option Nat) : Bool := 0 < outcome.getD 0

/-- What `SignalDiagnostic` documents of the counters, for the frames so far. -/
structure SignalDiagnostic.Documented (diag : SignalDiagnostic) (outcomes : List (Option Nat)) :
    Prop where
  received : diag.framesReceived = diag.framesDecoded + diag.framesUnknown
  errors : diag.decodeErrors = outcomes.countP failsSome
  bounded : diag.decodeErrors ≤ diag.framesDecoded

/-- A sum is at least the count of what is not zero in it. -/
theorem countP_failsSome_le (outcomes : List (Option Nat)) :
    outcomes.countP failsSome ≤ (outcomes.map (·.getD 0)).sum := by
  induction outcomes with
  | nil => simp
  | cons outcome rest ih =>
    rw [List.countP_cons, List.map_cons, List.sum_cons]
    by_cases hFails : failsSome outcome = true
    · have hPos : 0 < outcome.getD 0 := by simpa [failsSome] using hFails
      rw [if_pos hFails]
      omega
    · rw [if_neg hFails]
      omega

/-- A sum is the count of what is not zero in it only where all of that is one. -/
theorem sum_eq_countP_iff (outcomes : List (Option Nat)) :
    (outcomes.map (·.getD 0)).sum = outcomes.countP failsSome ↔
      ∀ outcome ∈ outcomes, outcome.getD 0 ≤ 1 := by
  induction outcomes with
  | nil => simp
  | cons outcome rest ih =>
    have hRest := countP_failsSome_le rest
    rw [List.countP_cons, List.map_cons, List.sum_cons, List.forall_mem_cons, ← ih]
    by_cases hFails : failsSome outcome = true
    · have hPos : 0 < outcome.getD 0 := by simpa [failsSome] using hFails
      rw [if_pos hFails]
      omega
    · have hZero : outcome.getD 0 = 0 := by simpa [failsSome] using hFails
      rw [if_neg hFails]
      omega

theorem countP_failsSome_le_isSome (outcomes : List (Option Nat)) :
    outcomes.countP failsSome ≤ outcomes.countP Option.isSome :=
  List.countP_mono_left fun outcome _ hFails => by
    cases outcome with
    | none => contradiction
    | some failed => rfl

namespace VehicleCanNode

variable {E : Env}

/-- What the frames of some callbacks count as. -/
def outcomes (E : Env) (start : VehicleCanNode) (callbacks : List Callback) :
    List (Option Nat) :=
  (callbacks.filterMap Callback.frame).map (start.outcome E)

theorem callback_tally {n n' : VehicleCanNode} {effects : List Effect} {c : Callback}
    (h : n.callback E c = .ok (n', effects)) :
    n'.tally = (c.frame.toList.map (n.outcome E)).foldl Tally.count n.tally := by
  obtain ⟨order, msg, stamp, rfl, -, hFrame⟩ | ⟨checkOrder, listOrder, now, rfl, hTimer⟩ |
    ⟨order, now, rfl, rfl, -⟩ := callback_cases h
  · have hTally := processFrame_tally (E := E) order n (toCanFrame msg) stamp
    rwa [hFrame] at hTally
  · obtain ⟨rfl, -⟩ := Prod.mk.inj hTimer
    rfl
  · rfl

/-- The counters after a run are those of its frames. -/
theorem spin_tally {start n : VehicleCanNode} {callbacks : List Callback}
    (h : start.spin E callbacks = .ok n) :
    n.tally = (outcomes E start callbacks).foldl Tally.count start.tally := by
  induction callbacks generalizing start with
  | nil =>
    obtain rfl := Except.ok.inj h
    rfl
  | cons c rest ih =>
    unfold spin at h
    cases hCall : start.callback E c with
    | error e => simp [hCall, bind, Except.bind] at h
    | ok r =>
      rw [hCall] at h
      have hSetup : ∀ frame, r.1.outcome E frame = start.outcome E frame :=
        (callback_setup hCall).outcome
      have hRest := ih h
      unfold outcomes at hRest ⊢
      rw [callback_tally hCall, funext hSetup] at hRest
      rw [hRest, ← List.foldl_append, ← List.map_append]
      cases hFrame : c.frame with
      | none => rw [List.filterMap_cons_none hFrame]; rfl
      | some frame => rw [List.filterMap_cons_some hFrame]; rfl

/-- After a run the frames received are those decoded and those unknown, and the counters are as
documented exactly when no frame of the run had two failing signals. -/
theorem diagnostics_documented_iff {overrides : Overrides} {start n : VehicleCanNode}
    {callbacks : List Callback} (hStart : Constructed E overrides start)
    (hRun : start.spin E callbacks = .ok n) (checkOrder listOrder : HashOrder) (now : Stamp) :
    ∃ diag, (n.onDiagnosticsTimer E checkOrder listOrder now).2 = [.publishDiagnostics diag] ∧
      diag.framesReceived = diag.framesDecoded + diag.framesUnknown ∧
      (diag.Documented (outcomes E start callbacks) ↔
        ∀ frame ∈ callbacks.filterMap Callback.frame, ∀ failed,
          start.outcome E frame = some failed → failed ≤ 1) := by
  refine ⟨_, rfl, ?_⟩
  have hTally := spin_tally hRun
  rw [hStart.tally, Tally.foldl_count] at hTally
  obtain ⟨hReceived, hDecoded, hUnknown, hErrors⟩ := (Tally.mk.injEq ..).mp hTally
  simp only [Tally.zero, Nat.zero_add] at hReceived hDecoded hUnknown hErrors
  have hSplit : n.framesReceived = n.framesDecoded + n.framesUnknown := by
    rw [hReceived, hDecoded, hUnknown, List.length_eq_countP_add_countP Option.isSome]
    congr 1
    exact List.countP_congr fun outcome _ => by cases outcome <;> simp
  have hCondition : (∀ frame ∈ callbacks.filterMap Callback.frame, ∀ failed,
      start.outcome E frame = some failed → failed ≤ 1) ↔
      ∀ outcome ∈ outcomes E start callbacks, outcome.getD 0 ≤ 1 := by
    unfold outcomes
    rw [List.forall_mem_map]
    refine forall₂_congr fun frame _ => ?_
    cases start.outcome E frame <;> simp
  refine ⟨hSplit, ?_⟩
  rw [hCondition, ← sum_eq_countP_iff, ← hErrors]
  constructor
  · exact fun h => h.errors
  · intro h
    refine ⟨hSplit, h, ?_⟩
    show n.decodeErrors ≤ n.framesDecoded
    rw [h, hDecoded]
    exact countP_failsSome_le_isSome _

/-! ### Samples -/

/-- Two signals with an expression that throws. -/
def throwingOverrides : Overrides :=
  List.toAList
    [⟨str "dbc_file", ParameterValue.string "vehicle.dbc"⟩,
      ⟨"transform_names", .stringArray ["pressed", "locked"]⟩,
      ⟨"transforms.pressed.expression", .string "x"⟩,
      ⟨"transforms.locked.expression", .string "x"⟩]

def throwingEnv : Env :=
  { sampleEnv (sampleNetwork 256) with
    exprtk := ⟨fun _ => .ok (), fun _ x => (.error ⟨"no value"⟩, x)⟩ }

def throwingNode : VehicleCanNode :=
  { sampleNode (sampleNetwork 256) throwingOverrides with
    transformer :=
      Hoare.final (SignalTransformer.configure throwingEnv.exprtk .listed
        throwingOverrides.transforms .empty) }

/-- A frame with both signals. -/
def brakeFrame : Frame := ⟨⟨⟨5, 0⟩, ""⟩, 256, false, false, false, 8, Payload.zeros⟩

/-- One frame, of which both signals fail, counts as two errors. -/
theorem two_errors_of_one_frame :
    Constructed throwingEnv throwingOverrides throwingNode ∧
      ∃ n, throwingNode.spin throwingEnv [.canFrame .listed brakeFrame] = .ok n ∧
        n.framesReceived = 1 ∧ n.framesDecoded = 1 ∧ n.decodeErrors = 2 ∧
        ∃ diag, (n.onDiagnosticsTimer throwingEnv .listed .listed ⟨5, 0⟩).2 =
            [.publishDiagnostics diag] ∧
          ¬ diag.Documented (outcomes throwingEnv throwingNode [.canFrame .listed brakeFrame]) := by
  refine ⟨⟨.listed, ⟨0, 0⟩, _, rfl⟩, _, rfl, rfl, rfl, rfl, _, rfl, fun h => ?_⟩
  exact absurd h.bounded (by decide)

theorem diagnostics_documented_iff_sample :
    let n := sampleNode (sampleNetwork 256) sampleOverrides
    let E := sampleEnv (sampleNetwork 256)
    let callbacks := [Callback.canFrame .listed brakeFrame]
    ∃ n', n.spin E callbacks = .ok n' ∧
      ∃ diag, (n'.onDiagnosticsTimer E .listed .listed ⟨6, 0⟩).2 = [.publishDiagnostics diag] ∧
        diag.Documented (outcomes E n callbacks) := by
  intro n E callbacks
  have hStart : Constructed E sampleOverrides n := ⟨.listed, ⟨0, 0⟩, _, rfl⟩
  have hRun : n.spin E callbacks =
      .ok (n.processFrame E .listed (toCanFrame brakeFrame) 5000000000).1 := rfl
  obtain ⟨diag, hDiag, -, hIff⟩ :=
    diagnostics_documented_iff hStart hRun .listed .listed ⟨6, 0⟩
  refine ⟨_, hRun, diag, hDiag, hIff.mpr fun frame hFrame failed hFailed => ?_⟩
  obtain rfl := List.mem_singleton.mp hFrame
  obtain rfl : 0 = failed := Option.some.inj (Eq.trans (show some 0 = _ from rfl) hFailed)
  omega

end VehicleCanNode

end VehicleCanDecoder
