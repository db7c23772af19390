import VehicleCanDecoder.Transformer

/-! What a `SignalTransformer` promises its callers: a transform depends on the configuration of its
signal and on the raw value, and on nothing that was transformed before.  The two departures are the
unit of a signal that is configured without an expression, which is not stored, and a `configure`
that throws, which has cleared the table and installed the expressions before the bad one. -/

namespace VehicleCanDecoder

namespace SignalTransformer

variable (X : Exprtk)

/-- The transformer after some transforms. -/
def transforms (t : SignalTransformer) (calls : List (ByteString × Double)) : SignalTransformer :=
  calls.foldl (fun t call => (t.transform X call.1 call.2).2) t

/-- Transforms write variables only. -/
theorem transforms_installed (t : SignalTransformer) (calls : List (ByteString × Double)) :
    (t.transforms X calls).installed = t.installed := by
  induction calls generalizing t with
  | nil => rfl
  | cons call rest ih =>
    show ((t.transform X call.1 call.2).2.transforms X rest).installed = _
    rw [ih, transform_installed]

/-- What a transform of a signal returns or throws, by the expression and the unit that are
installed for it. -/
def outcome (installed : Option (ByteString × ByteString)) (rawValue : Double) :
    Except StdException TransformResult :=
  match installed with
  | none => .ok ⟨rawValue, rawValue, ""⟩
  | some (expression, unit) =>
    (X.value expression rawValue).1.map fun transformed => ⟨transformed, rawValue, unit⟩

theorem transform_outcome (t : SignalTransformer) (signalName : ByteString) (rawValue : Double) :
    (t.transform X signalName rawValue).1 = outcome X (t.installed signalName) rawValue :=
  transform_result X t signalName rawValue

/-! ### The contract of `transform` -/

/-- The value of a signal: its expression at `x = rawValue`, or the raw value without one. -/
def valueOf (cfg : Option TransformConfig) (rawValue : Double) : Except StdException Double :=
  match cfg with
  | none => .ok rawValue
  | some cfg => if cfg.expression = [] then .ok rawValue else (X.value cfg.expression rawValue).1

/-- What `transform` is to return for a raw value of a signal, by what is configured for the
signal. -/
structure Contract (cfg : Option TransformConfig) (rawValue : Double)
    (r : Except StdException TransformResult) : Prop where
  raw : ∀ result, r = .ok result → result.rawValue = rawValue
  value : r.map TransformResult.value = valueOf X cfg rawValue
  unit : ∀ c, cfg = some c → ∀ result, r = .ok result → result.unit = c.unit
  noUnit : ∀ result, r = .ok result → result.unit = [] →
    cfg = none ∨ ∃ c, cfg = some c ∧ c.unit = []

/-- Whatever is installed for a signal is what its transform uses. -/
theorem contract_installs {c : TransformConfig} (hExpression : c.expression ≠ [])
    (rawValue : Double) : Contract X (some c) rawValue (outcome X c.installs rawValue) := by
  have hInstalls : c.installs = some (c.expression, c.unit) := if_neg hExpression
  have hValueOf : valueOf X (some c) rawValue = (X.value c.expression rawValue).1 :=
    if_neg hExpression
  rw [hInstalls]
  cases hValue : (X.value c.expression rawValue).1 with
  | error e =>
    have hOutcome : outcome X (some (c.expression, c.unit)) rawValue = .error e := by
      simp [outcome, hValue, Except.map]
    rw [hOutcome]
    exact ⟨by simp, by rw [hValueOf, hValue]; rfl, by simp, by simp⟩
  | ok value =>
    have hOutcome : outcome X (some (c.expression, c.unit)) rawValue =
        .ok ⟨value, rawValue, c.unit⟩ := by
      simp [outcome, hValue, Except.map]
    rw [hOutcome]
    refine ⟨?_, by rw [hValueOf, hValue]; rfl, ?_, ?_⟩
    · rintro result ⟨⟩
      rfl
    · rintro c' ⟨⟩ result ⟨⟩
      rfl
    · rintro result ⟨⟩ hUnit
      exact .inr ⟨c, rfl, hUnit⟩

/-- Without an expression, the unit that is returned is empty. -/
theorem contract_passthrough_iff (cfg : Option TransformConfig) (rawValue : Double)
    (hEmpty : ∀ c, cfg = some c → c.expression = []) :
    Contract X cfg rawValue (.ok ⟨rawValue, rawValue, ""⟩) ↔ ∀ c, cfg = some c → c.unit = [] := by
  constructor
  · intro h c hc
    exact (h.unit c hc _ rfl).symm
  · intro hUnit
    refine ⟨?_, ?_, ?_, ?_⟩
    · rintro result ⟨⟩
      rfl
    · cases cfg with
      | none => rfl
      | some c => exact (if_pos (hEmpty c rfl)).symm
    · rintro c hc result ⟨⟩
      exact (hUnit c hc).symm
    · rintro result ⟨⟩ -
      cases cfg with
      | none => exact .inl rfl
      | some c => exact .inr ⟨c, rfl, hUnit c rfl⟩

/-- After `configure` and any transforms, `transform` keeps its contract for a signal unless the
signal is configured with a unit and without an expression. -/
theorem transform_contract_iff {order : HashOrder}
    {configs : UnorderedMap ByteString TransformConfig} {t₀ t : SignalTransformer} {u : PUnit}
    (h : configure X order configs t₀ = .ok u t) (calls : List (ByteString × Double))
    (signalName : ByteString) (rawValue : Double) :
    Contract X (configs.lookup signalName) rawValue
        ((t.transforms X calls).transform X signalName rawValue).1 ↔
      ¬ ∃ c, configs.lookup signalName = some c ∧ c.expression = [] ∧ c.unit ≠ [] := by
  rw [transform_outcome, transforms_installed, configure_ok X h]
  cases hLookup : configs.lookup signalName with
  | none =>
    have hPass := contract_passthrough_iff X none rawValue (by simp)
    refine iff_of_true (hPass.mpr (by simp)) ?_
    simp
  | some c =>
    by_cases hExpression : c.expression = []
    · have hNone : (some c).bind TransformConfig.installs = none := if_pos hExpression
      rw [hNone]
      refine (contract_passthrough_iff X (some c) rawValue ?_).trans ?_
      · rintro c' ⟨⟩
        exact hExpression
      · simp [hExpression]
    · refine iff_of_true (contract_installs X hExpression rawValue) ?_
      rintro ⟨c', ⟨⟩, hEmpty, -⟩
      exact hExpression hEmpty

/-! ### What a failed `configure` leaves -/

/-- A `configure` that returns installs exactly the configured expressions.  One that throws has
removed the previous ones, and installed exactly the expressions of the entries that its loop met
before the first expression that does not compile. -/
theorem configure_outcome (order : HashOrder) (configs : UnorderedMap ByteString TransformConfig)
    (t : SignalTransformer) :
    (∀ u t', configure X order configs t = .ok u t' →
      (∀ entry ∈ configs.items order,
        entry.2.expression ≠ [] → X.compile entry.2.expression = .ok ()) ∧
      ∀ signalName rawValue, (t'.transform X signalName rawValue).1 =
        outcome X ((configs.lookup signalName).bind TransformConfig.installs) rawValue) ∧
    (∀ e t', configure X order configs t = .error e t' →
      ∃ done bad rest, configs.items order = done ++ bad :: rest ∧
        (∀ entry ∈ done,
          entry.2.expression ≠ [] → X.compile entry.2.expression = .ok ()) ∧
        bad.2.expression ≠ [] ∧
        CompiledExpr.compile X bad.2.expression bad.2.unit = .error e ∧
        ∀ signalName rawValue, (t'.transform X signalName rawValue).1 =
          outcome X ((done.lookup signalName).bind TransformConfig.installs) rawValue) := by
  have hConfigure := configure_triple X order configs
  constructor
  · intro u t' h
    refine ⟨(hConfigure.ok trivial h).compiles, fun signalName rawValue => ?_⟩
    rw [transform_outcome, configure_ok X h]
  · intro e t' h
    obtain ⟨done, bad, rest, hItems, hDone, hExpression, hError⟩ := hConfigure.error trivial h
    refine ⟨done, bad, rest, hItems, hDone.compiles, hExpression, hError,
      fun signalName rawValue => ?_⟩
    rw [transform_outcome, hDone.installed]

/-! ### Samples -/

/-- An expression library that knows one expression, and one text that is none. -/
def sampleExprtk : Exprtk where
  compile expression := if expression = str "x + + + " then .error "ERR" else .ok ()
  value _ x := (.ok (if x = 0x4059000000000000 then 0x403BC71C71C71C72 else x), x)

def gearConfigs (unit : String) : UnorderedMap ByteString TransformConfig :=
  (∅ : UnorderedMap ByteString TransformConfig).insert "Gear" ⟨"", unit⟩

def speedConfigs : UnorderedMap ByteString TransformConfig :=
  (∅ : UnorderedMap ByteString TransformConfig).insert "Speed" ⟨"x / 3.6", "m/s"⟩

def badConfigs : UnorderedMap ByteString TransformConfig :=
  (∅ : UnorderedMap ByteString TransformConfig).insert "Bad" ⟨"x + + + ", ""⟩

/-- A signal without an expression and without a unit. -/
theorem transform_contract_iff_gear :
    Contract sampleExprtk ((gearConfigs "").lookup (str "Gear")) 0x4010000000000000
      ((empty.transforms sampleExprtk [(str "Gear", 0)]).transform sampleExprtk "Gear"
        0x4010000000000000).1 :=
  (transform_contract_iff sampleExprtk
    (show configure sampleExprtk .listed (gearConfigs "") empty = .ok ⟨⟩ empty from rfl)
    [(str "Gear", 0)] "Gear" 0x4010000000000000).mpr (by
      rintro ⟨c, hLookup, -, hUnit⟩
      obtain rfl : (⟨"", ""⟩ : TransformConfig) = c := Option.some.inj hLookup
      exact hUnit rfl)

/-- A signal with a unit and without an expression loses its unit. -/
theorem gear_loses_unit :
    ∃ t, configure sampleExprtk .listed (gearConfigs "gear") empty = .ok ⟨⟩ t ∧
      ¬ Contract sampleExprtk ((gearConfigs "gear").lookup (str "Gear")) 0x4010000000000000
        (t.transform sampleExprtk "Gear" 0x4010000000000000).1 := by
  refine ⟨empty, rfl, fun h => ?_⟩
  have hUnit := h.unit ⟨"", "gear"⟩ rfl _ rfl
  exact absurd hUnit (by decide)

/-- A failed `configure` loses the expressions that were installed before it. -/
theorem failed_configure_forgets :
    ∃ t e t', configure sampleExprtk .listed speedConfigs empty = .ok ⟨⟩ t ∧
      configure sampleExprtk .listed badConfigs t = .error e t' ∧
      (t'.transform sampleExprtk "Speed" 0x4059000000000000).1 ≠
        (t.transform sampleExprtk "Speed" 0x4059000000000000).1 :=
  ⟨_, _, _, rfl, rfl, by decide⟩

end SignalTransformer

end VehicleCanDecoder
