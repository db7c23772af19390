import VehicleCanDecoder.Schema

/-! The units of the published schema.  The loader numbers the unit names and the signal names by
their positions and keeps the unit of each signal number; the schema joins the tables again.  An
entry of the table has the number of the last position of its name, so its unit is the one that the
parallel list has there. -/

namespace VehicleCanDecoder

/-- A name that occurs has a last position. -/
theorem exists_lastAt {names : List ByteString} {name : ByteString} (h : name ∈ names) :
    ∃ i, LastAt names name i := by
  induction names using List.reverseRecOn with
  | nil => simp at h
  | append_singleton names x ih =>
    by_cases hHere : name = x
    · exact ⟨names.length, (lastAt_concat names x name _).mpr (.inl ⟨rfl, hHere⟩)⟩
    · have hBefore : name ∈ names := by simpa [hHere] using h
      obtain ⟨i, hi⟩ := ih hBefore
      have hLt := (List.getElem?_eq_some_iff.mp hi.1).1
      exact ⟨i, (lastAt_concat names x name i).mpr (.inr ⟨hLt, hHere, hi⟩)⟩

theorem LastAt.mem {names : List ByteString} {name : ByteString} {i : Nat}
    (h : LastAt names name i) : name ∈ names := List.mem_of_getElem? h.1

theorem numberUnits_concat (units : UnorderedMap ByteString UInt16) (names : List ByteString)
    (x : ByteString) : numberUnits units (names ++ [x]) =
      match units.lookup x with
      | some unitId => (numberUnits units names).insert (UInt16.ofNat (names.length + 1)) unitId
      | none => numberUnits units names := by
  unfold numberUnits
  rw [List.zipIdx_append, List.foldl_append]
  cases h : units.lookup x <;> simp [h]

/-- The unit of a signal number is that of the name at its position. -/
theorem lookup_numberUnits (units : UnorderedMap ByteString UInt16) {names : List ByteString}
    (hLength : names.length ≤ 65535) {i : Nat} (hi : i < 65535) :
    (numberUnits units names).lookup (UInt16.ofNat (i + 1)) = names[i]?.bind units.lookup := by
  induction names using List.reverseRecOn with
  | nil => rfl
  | append_singleton names x ih =>
    rw [List.length_append, List.length_singleton] at hLength
    have hBefore := ih (by omega)
    rw [numberUnits_concat]
    by_cases hHere : i = names.length
    · subst hHere
      have hNone : (numberUnits units names).lookup (UInt16.ofNat (names.length + 1)) = none := by
        rw [hBefore, List.getElem?_eq_none (by omega)]
        rfl
      cases hUnit : units.lookup x with
      | none => simp [hNone, hUnit]
      | some unitId => simp [hUnit]
    · have hNe : UInt16.ofNat (i + 1) ≠ UInt16.ofNat (names.length + 1) := by
        intro hEq
        have hNat := congrArg UInt16.toNat hEq
        rw [ofNat_toNat_le (by omega), ofNat_toNat_le (by omega)] at hNat
        omega
      have hSame : (names ++ [x])[i]? = names[i]? := by
        rcases Nat.lt_or_gt_of_ne hHere with hLt | hGt
        · rw [List.getElem?_append_left hLt]
        · rw [List.getElem?_eq_none (by simp; omega), List.getElem?_eq_none (by omega)]
      rw [hSame, ← hBefore]
      cases units.lookup x with
      | none => rfl
      | some unitId => rw [UnorderedMap.lookup_insert_eq, if_neg hNe]

/-- A unit number resolves to a name in a table of units, by the rule of the message file; the
number 0 stands for a name that the table does not have. -/
structure ResolvesUnit (unitTable : List ByteString) (unitId : UInt16) (unit : ByteString) :
    Prop where
  found : unit ∈ unitTable → 1 ≤ unitId.toNat ∧ unitId.toNat ≤ unitTable.length ∧
    unitTable[unitId.toNat - 1]? = some unit
  absent : unit ∉ unitTable → unitId = 0

theorem numberNames_resolvesUnit {unitNames : List ByteString} (hLength : unitNames.length ≤ 65535)
    (unit : ByteString) :
    ResolvesUnit unitNames (((numberNames unitNames).lookup unit).getD 0) unit := by
  constructor
  · intro hUnit
    obtain ⟨j, hLast⟩ := exists_lastAt hUnit
    have hj := (List.getElem?_eq_some_iff.mp hLast.1).1
    rw [(lookup_numberNames unitNames unit _).mpr ⟨j, hLast, rfl⟩, Option.getD_some,
      ofNat_toNat_le (by omega)]
    exact ⟨by omega, by omega, hLast.1⟩
  · intro hUnit
    have hNone : (numberNames unitNames).lookup unit = none := by
      rw [Option.eq_none_iff_forall_ne_some]
      intro id hId
      obtain ⟨j, hLast, -⟩ := (lookup_numberNames unitNames unit id).mp hId
      exact hUnit hLast.mem
    rw [hNone]
    rfl

namespace VehicleCanNode

/-- In every schema that a node publishes, an entry stands for a position of the signal names, and
its unit number resolves to the unit name at that position.  No number is too large for its type. -/
theorem published_units_resolve {E : Env} (hDeclare : E.rclcpp.DeclareDocumented)
    {overrides : Overrides} {start n : VehicleCanNode} {out : List Effect}
    (hStart : Constructed E overrides start) (hRuns : Runs E start n out) (order : HashOrder)
    (now : Stamp) :
    let schema := n.publishSchema order now
    let signalNames := overrides.strings "signal_id_names"
    let unitNames := overrides.strings "unit_id_names"
    schema.unitTable = unitNames ∧
    (∀ e ∈ schema.signalTable, 1 ≤ e.id.toNat ∧ e.id.toNat ≤ signalNames.length ∧
      signalNames[e.id.toNat - 1]? = some e.name ∧
      ∃ unit, (overrides.strings "signal_id_unit_names")[e.id.toNat - 1]? = some unit ∧
        ResolvesUnit schema.unitTable e.unitId unit) ∧
    signalNames.length ≤ 65535 ∧ unitNames.length ≤ 65535 ∧
    (∀ i < signalNames.length, (UInt16.ofNat (i + 1)).toNat = i + 1) ∧
    ∀ i < unitNames.length, (UInt16.ofNat (i + 1)).toNat = i + 1 := by
  intro schema signalNames unitNames
  obtain ⟨order', l, hConfigured, rfl⟩ := hStart.configured hDeclare
  have hParams : n.params = overrides.params := hRuns.setup.params.trans hConfigured.params
  have hSignals : signalNames.length ≤ 65535 := hConfigured.signalIdNames
  have hUnits : unitNames.length ≤ 65535 := hConfigured.unitIdNames
  have hUnitTable : schema.unitTable = unitNames := congrArg NodeParams.unitIdNames hParams
  refine ⟨hUnitTable, fun e he => ?_, hSignals, hUnits, fun i hi => ofNat_toNat_le (by omega),
    fun i hi => ofNat_toNat_le (by omega)⟩
  rw [publishSchema_table order n now (congrArg NodeParams.signalNameToId hParams) hSignals] at he
  obtain ⟨⟨id, name⟩, hNumbered, rfl⟩ := List.mem_map.mp he
  obtain ⟨i, hLast, rfl⟩ := (mem_numbered signalNames id name).mp hNumbered
  have hi := (List.getElem?_eq_some_iff.mp hLast.1).1
  -- The parallel list has a unit at the position, since there is a signal.
  have hSome : signalNames ≠ [] := List.ne_nil_of_length_pos (by omega)
  have hParallel : (overrides.strings "signal_id_unit_names").length = signalNames.length :=
    hConfigured.signalIdUnitNames hSome
  obtain ⟨unit, hUnit⟩ : ∃ unit,
      (overrides.strings "signal_id_unit_names")[i]? = some unit :=
    ⟨_, List.getElem?_eq_getElem (by omega)⟩
  have hUnitId : (n.schemaEntry (UInt16.ofNat (i + 1), name)).unitId =
      ((numberNames unitNames).lookup unit).getD 0 := by
    have hIds : n.params.signalIdToUnitId =
        numberUnits (numberNames unitNames) (overrides.strings "signal_id_unit_names") := by
      rw [hParams]
      exact if_neg hSome
    show (n.params.signalIdToUnitId.lookup (UInt16.ofNat (i + 1))).getD 0 = _
    rw [hIds, lookup_numberUnits _ (hParallel.trans_le hSignals) (by omega), hUnit]
    rfl
  show 1 ≤ (UInt16.ofNat (i + 1)).toNat ∧ (UInt16.ofNat (i + 1)).toNat ≤ signalNames.length ∧
    signalNames[(UInt16.ofNat (i + 1)).toNat - 1]? = some name ∧ ∃ unit,
      (overrides.strings "signal_id_unit_names")[(UInt16.ofNat (i + 1)).toNat - 1]? = some unit ∧
        ResolvesUnit schema.unitTable _ unit
  rw [ofNat_toNat_le (by omega), Nat.add_sub_cancel, hUnitTable, hUnitId]
  exact ⟨by omega, by omega, hLast.1, unit, hUnit, numberNames_resolvesUnit hUnits unit⟩

/-- Repeated names in all three lists. -/
def repeatedUnits : Overrides :=
  List.toAList
    [⟨str "dbc_file", ParameterValue.string "vehicle.dbc"⟩,
      ⟨"signal_id_names", .stringArray ["pressed", "locked", "pressed"]⟩,
      ⟨"signal_id_unit_names", .stringArray ["m/s", "rad", "m"]⟩,
      ⟨"unit_id_names", .stringArray ["m", "s", "m"]⟩]

theorem published_units_resolve_sample :
    let n := sampleNode (sampleNetwork 256) repeatedUnits
    let schema := n.publishSchema .listed ⟨0, 0⟩
    schema.signalTable = [⟨2, "locked", 0⟩, ⟨3, "pressed", 3⟩] ∧
      ∀ e ∈ schema.signalTable, ∃ unit,
        (repeatedUnits.strings "signal_id_unit_names")[e.id.toNat - 1]? = some unit ∧
          ResolvesUnit schema.unitTable e.unitId unit := by
  intro n schema
  have hStart : Constructed (sampleEnv (sampleNetwork 256)) repeatedUnits n :=
    ⟨.listed, ⟨0, 0⟩, _, rfl⟩
  have hUnits := published_units_resolve Rclcpp.documented_declare hStart .start .listed ⟨0, 0⟩
  exact ⟨by decide +kernel, fun e he => (hUnits.2.1 e he).2.2.2⟩

end VehicleCanNode

end VehicleCanDecoder
