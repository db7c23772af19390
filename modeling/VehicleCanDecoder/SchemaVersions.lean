import VehicleCanDecoder.UnitIds

/-! Versions of the schema.  The configuration says of its tables of names and of units that they
are to be appended to, never reordered, so that what has been recorded can still be read: a version
is a minor one if no number of a name or of a unit changes.  The numbers are given by the loader, so
this is a fact about two launches: the schema of the later one keeps the numbers of the earlier one
just if nothing that has one is listed again. -/

namespace VehicleCanDecoder

/-- The unit of an entry, by the rule of the message file. -/
def VehicleSchema.unitOf (schema : VehicleSchema) (e : SignalEntry) : Option ByteString :=
  if e.unitId = 0 then none else schema.unitTable[e.unitId.toNat - 1]?

/-- `schema'` is a minor version of `schema`: entries and units have been added, and no number has
changed. -/
structure VehicleSchema.Supersedes (schema' schema : VehicleSchema) : Prop where
  signals : schema.signalTable <+: schema'.signalTable
  units : schema.unitTable <+: schema'.unitTable

/-- What is appended leaves the positions as they are. -/
theorem getElem?_of_isPrefix {α : Type} {l l' : List α} (h : l <+: l') {i : Nat} {x : α}
    (hx : l[i]? = some x) : l'[i]? = some x := by
  obtain ⟨hi, rfl⟩ := List.getElem?_eq_some_iff.mp hx
  exact List.prefix_iff_getElem?.mp h i hi

/-- What resolves with a version resolves to the same with a later minor one. -/
theorem VehicleSchema.Supersedes.unitOf {schema' schema : VehicleSchema}
    (h : schema'.Supersedes schema) {e : SignalEntry} {unit : ByteString}
    (hUnit : schema.unitOf e = some unit) : schema'.unitOf e = some unit := by
  unfold VehicleSchema.unitOf at hUnit ⊢
  split at hUnit
  · contradiction
  · rename_i hSome
    rw [if_neg hSome]
    exact getElem?_of_isPrefix h.units hUnit

/-- A name that is not appended is last where it was. -/
theorem lastAt_append_old {names added : List ByteString} {name : ByteString} (h : name ∉ added)
    (i : Nat) : LastAt (names ++ added) name i ↔ LastAt names name i := by
  induction added using List.reverseRecOn with
  | nil => rw [List.append_nil]
  | append_singleton added x ih =>
    rw [List.mem_append, List.mem_singleton, not_or] at h
    rw [← List.append_assoc, lastAt_concat, ih h.1]
    constructor
    · rintro (⟨-, hHere⟩ | ⟨-, -, hLast⟩)
      · exact absurd hHere h.2
      · exact hLast
    · intro hLast
      have hi := (List.getElem?_eq_some_iff.mp hLast.1).1
      exact .inr ⟨by rw [List.length_append]; omega, h.2, hLast⟩

/-- A name that is appended is last there. -/
theorem lastAt_append_new {names added : List ByteString} {name : ByteString} (h : name ∈ added) :
    ∃ i, names.length ≤ i ∧ LastAt (names ++ added) name i := by
  obtain ⟨j, hAt, hAfter⟩ := exists_lastAt h
  refine ⟨names.length + j, by omega, ?_, ?_⟩
  · rw [List.getElem?_append_right (by omega), Nat.add_sub_cancel_left, hAt]
  · rwa [Nat.add_assoc, List.drop_append, List.drop_eq_nil_of_le (by omega), List.nil_append,
      Nat.add_sub_cancel_left]

/-- The number of a unit, as an entry has it. -/
def unitNumber (unitNames : List ByteString) (unit : ByteString) : UInt16 :=
  ((numberNames unitNames).lookup unit).getD 0

/-- The number of a unit stays the same just if the unit is not appended. -/
theorem unitNumber_append_iff {units added : List ByteString}
    (hLength : (units ++ added).length ≤ 65535) (unit : ByteString) :
    unitNumber (units ++ added) unit = unitNumber units unit ↔ unit ∉ added := by
  constructor
  · intro hSame hMem
    obtain ⟨i, hOver, hLast⟩ : ∃ i, units.length ≤ i ∧ LastAt (units ++ added) unit i :=
      lastAt_append_new hMem
    have hi := (List.getElem?_eq_some_iff.mp hLast.1).1
    have hNew := (lookup_numberNames (units ++ added) unit _).mpr ⟨i, hLast, rfl⟩
    rw [unitNumber, hNew, Option.getD_some] at hSame
    rw [List.length_append] at hLength hi
    have hNat := congrArg UInt16.toNat hSame
    rw [ofNat_toNat_le (by omega), unitNumber] at hNat
    -- Its number was that of an earlier position, or none.
    cases hOld : (numberNames units).lookup unit with
    | none =>
      rw [hOld] at hNat
      simp at hNat
    | some id =>
      obtain ⟨j, hBefore, rfl⟩ := (lookup_numberNames units unit id).mp hOld
      have hj := (List.getElem?_eq_some_iff.mp hBefore.1).1
      rw [hOld, Option.getD_some, ofNat_toNat_le (by omega)] at hNat
      omega
  · intro hNew
    have hLookup : (numberNames (units ++ added)).lookup unit =
        (numberNames units).lookup unit := by
      ext id
      rw [lookup_numberNames, lookup_numberNames]
      simp only [lastAt_append_old hNew]
    rw [unitNumber, hLookup, unitNumber]

/-- The numbers do not change when other names are appended. -/
theorem numbered_append {names added : List ByteString} (h : names.Disjoint added) :
    numbered names <+: numbered (names ++ added) := by
  unfold numbered
  rw [List.zipIdx_append, List.filter_append, List.map_append]
  have hSame : names.zipIdx.filter (fun e => e.1 ∉ (names ++ added).drop (e.2 + 1)) =
      names.zipIdx.filter fun e => e.1 ∉ names.drop (e.2 + 1) := by
    refine List.filter_congr fun e he => ?_
    have hAt := List.mem_zipIdx_iff_getElem?.mp he
    have hi := (List.getElem?_eq_some_iff.mp hAt).1
    have hNew : e.1 ∉ added := fun hAdded => h (List.mem_of_getElem? hAt) hAdded
    have hLater : e.1 ∉ (names ++ added).drop (e.2 + 1) ↔ e.1 ∉ names.drop (e.2 + 1) := by
      rw [List.drop_append_of_le_length (by omega), List.mem_append, or_iff_left hNew]
    exact decide_eq_decide.mpr hLater
  rw [hSame]
  exact List.prefix_append ..

/-- An entry that is kept is the last of its name. -/
theorem not_mem_added {names added : List ByteString} (hLength : (names ++ added).length ≤ 65535)
    {name : ByteString} {i : Nat} (hi : i < names.length)
    (h : (UInt16.ofNat (i + 1), name) ∈ numbered (names ++ added)) : name ∉ added := by
  obtain ⟨j, hLast, hId⟩ := (mem_numbered _ _ _).mp h
  have hj := (List.getElem?_eq_some_iff.mp hLast.1).1
  rw [List.length_append] at hLength hj
  have hNat := congrArg UInt16.toNat hId
  rw [ofNat_toNat_le (by omega), ofNat_toNat_le (by omega)] at hNat
  obtain rfl : j = i := by omega
  have hAfter := hLast.2
  rw [List.drop_append_of_le_length (by omega), List.mem_append, not_or] at hAfter
  exact hAfter.2

namespace VehicleCanNode

/-- The units of the signals that have a number. -/
def unitsInUse (overrides : Overrides) : List ByteString :=
  (numbered (overrides.strings "signal_id_names")).filterMap fun e =>
    (overrides.strings "signal_id_unit_names")[e.1.toNat - 1]?

/-- A schema that has been published by a node that these parameters have launched. -/
structure Publishes (overrides : Overrides) (schema : VehicleSchema) : Prop where
  length : (overrides.strings "signal_id_names").length ≤ 65535
  unitLength : (overrides.strings "unit_id_names").length ≤ 65535
  table : schema.signalTable.map (fun e => (e.id, e.name)) =
    numbered (overrides.strings "signal_id_names")
  unitTable : schema.unitTable = overrides.strings "unit_id_names"
  unit : ∀ e ∈ schema.signalTable, ∃ unit,
    (overrides.strings "signal_id_unit_names")[e.id.toNat - 1]? = some unit ∧
      e.unitId = unitNumber (overrides.strings "unit_id_names") unit

theorem Runs.publishes {E : Env} (hDeclare : E.rclcpp.DeclareDocumented) {overrides : Overrides}
    {start n : VehicleCanNode} {out : List Effect} (hStart : Constructed E overrides start)
    (hRuns : Runs E start n out) (order : HashOrder) (now : Stamp) :
    Publishes overrides (n.publishSchema order now) := by
  obtain ⟨order', l, hConfigured, rfl⟩ := hStart.configured hDeclare
  have hParams : n.params = overrides.params := hRuns.setup.params.trans hConfigured.params
  generalize hNames : overrides.strings "signal_id_names" = names
  have hLength : names.length ≤ 65535 := hNames ▸ hConfigured.signalIdNames
  have hTable := publishSchema_table order n now
    (hNames ▸ congrArg NodeParams.signalNameToId hParams) hLength
  have hUnitTable : (n.publishSchema order now).unitTable = overrides.strings "unit_id_names" :=
    congrArg NodeParams.unitIdNames hParams
  refine ⟨hNames ▸ hLength, hConfigured.unitIdNames, ?_, hUnitTable, fun e he => ?_⟩
  · rw [hTable, List.map_map, hNames]
    exact List.map_id _
  rw [hTable] at he
  obtain ⟨⟨id, name⟩, hNumbered, rfl⟩ := List.mem_map.mp he
  obtain ⟨i, hLast, rfl⟩ := (mem_numbered names id name).mp hNumbered
  have hi := (List.getElem?_eq_some_iff.mp hLast.1).1
  have hSome : overrides.strings "signal_id_names" ≠ [] := by
    rw [hNames]
    exact List.ne_nil_of_length_pos (by omega)
  have hParallel := hConfigured.signalIdUnitNames hSome
  have hIds : n.params.signalIdToUnitId =
      numberUnits (numberNames (overrides.strings "unit_id_names"))
        (overrides.strings "signal_id_unit_names") := by
    rw [hParams]
    exact if_neg hSome
  rw [hNames] at hParallel
  generalize overrides.strings "signal_id_unit_names" = signalUnits at hParallel hIds ⊢
  obtain ⟨unit, hUnit⟩ : ∃ unit, signalUnits[i]? = some unit :=
    ⟨_, List.getElem?_eq_getElem (by omega)⟩
  refine ⟨unit, ?_, ?_⟩
  · show signalUnits[(UInt16.ofNat (i + 1)).toNat - 1]? = some unit
    rw [ofNat_toNat_le (by omega), Nat.add_sub_cancel, hUnit]
  · show (n.params.signalIdToUnitId.lookup (UInt16.ofNat (i + 1))).getD 0 = _
    rw [hIds, lookup_numberUnits _ (hParallel.trans_le hLength) (by omega), hUnit]
    rfl

section Appended

variable {overrides overrides' : Overrides} {schema schema' : VehicleSchema}

theorem Publishes.unit_mem (h : Publishes overrides schema) {e : SignalEntry}
    (he : e ∈ schema.signalTable) {unit : ByteString}
    (hAt : (overrides.strings "signal_id_unit_names")[e.id.toNat - 1]? = some unit) :
    unit ∈ unitsInUse overrides := by
  have hNumbered := List.mem_map_of_mem (f := fun e => (e.id, e.name)) he
  rw [h.table] at hNumbered
  exact List.mem_filterMap.mpr ⟨_, hNumbered, hAt⟩

/-- An entry with the same number and the same name has the same unit number just if its unit is not
appended. -/
theorem Publishes.unitId_iff (h : Publishes overrides schema) (h' : Publishes overrides' schema')
    (hSignalUnits : overrides.strings "signal_id_unit_names" <+:
      overrides'.strings "signal_id_unit_names") {addedUnits : List ByteString}
    (hUnits : overrides'.strings "unit_id_names" =
      overrides.strings "unit_id_names" ++ addedUnits)
    {e e' : SignalEntry} (he : e ∈ schema.signalTable) (he' : e' ∈ schema'.signalTable)
    (hId : e'.id = e.id) {unit : ByteString}
    (hAt : (overrides.strings "signal_id_unit_names")[e.id.toNat - 1]? = some unit) :
    e'.unitId = e.unitId ↔ unit ∉ addedUnits := by
  obtain ⟨u, hHere, hUnitId⟩ := h.unit e he
  obtain ⟨u', hHere', hUnitId'⟩ := h'.unit e' he'
  obtain rfl : unit = u := Option.some.inj (hAt.symm.trans hHere)
  obtain rfl : unit = u' := by
    rw [hId] at hHere'
    exact Option.some.inj ((getElem?_of_isPrefix hSignalUnits hAt).symm.trans hHere')
  have hLength := h'.unitLength
  rw [hUnits] at hUnitId' hLength
  rw [hUnitId, hUnitId', unitNumber_append_iff hLength]

/-- Of two launches, the second with its tables appended to, the second publishes a minor version of
the schema of the first just if it does not list a name again, nor a unit of a numbered signal,
whether that unit was listed before or not.  The nodes may have run for any time. -/
theorem published_supersedes_iff {E E' : Env} (hDeclare : E.rclcpp.DeclareDocumented)
    (hDeclare' : E'.rclcpp.DeclareDocumented) {start n start' n' : VehicleCanNode}
    {out out' : List Effect} (hStart : Constructed E overrides start) (hRuns : Runs E start n out)
    (hStart' : Constructed E' overrides' start') (hRuns' : Runs E' start' n' out')
    {added addedUnits : List ByteString}
    (hNames : overrides'.strings "signal_id_names" = overrides.strings "signal_id_names" ++ added)
    (hSignalUnits : overrides.strings "signal_id_unit_names" <+:
      overrides'.strings "signal_id_unit_names")
    (hUnits : overrides'.strings "unit_id_names" =
      overrides.strings "unit_id_names" ++ addedUnits)
    (order order' : HashOrder) (now now' : Stamp) :
    (n'.publishSchema order' now').Supersedes (n.publishSchema order now) ↔
      (overrides.strings "signal_id_names").Disjoint added ∧
        (unitsInUse overrides).Disjoint addedUnits := by
  have h := hRuns.publishes hDeclare hStart order now
  have h' := hRuns'.publishes hDeclare' hStart' order' now'
  generalize n.publishSchema order now = schema at h ⊢
  generalize n'.publishSchema order' now' = schema' at h' ⊢
  have hLength' := h'.length
  have hTable' := h'.table
  rw [hNames] at hLength' hTable'
  have hEntry : ∀ {id name}, (id, name) ∈ numbered (overrides.strings "signal_id_names") →
      ∃ e ∈ schema.signalTable, e.id = id ∧ e.name = name := by
    intro id name hNumbered
    rw [← h.table] at hNumbered
    obtain ⟨e, he, hEq⟩ := List.mem_map.mp hNumbered
    exact ⟨e, he, Prod.mk.inj hEq⟩
  constructor
  · intro hSupersedes
    refine ⟨fun name hOld hAdded => ?_, fun unit hUsed hAdded => ?_⟩
    · obtain ⟨i, hLast⟩ := exists_lastAt hOld
      have hi := (List.getElem?_eq_some_iff.mp hLast.1).1
      obtain ⟨e, he, hId, hName⟩ := hEntry ((mem_numbered _ _ _).mpr ⟨i, hLast, rfl⟩)
      have hNumbered' := List.mem_map_of_mem (f := fun e => (e.id, e.name))
        (hSupersedes.signals.subset he)
      rw [hTable', hId, hName] at hNumbered'
      exact not_mem_added hLength' hi hNumbered' hAdded
    · obtain ⟨⟨id, name⟩, hNumbered, hAt⟩ := List.mem_filterMap.mp hUsed
      obtain ⟨e, he, rfl, -⟩ := hEntry hNumbered
      exact (h.unitId_iff h' hSignalUnits hUnits he (hSupersedes.signals.subset he) rfl hAt).mp rfl
        hAdded
  · rintro ⟨hNew, hNewUnits⟩
    refine ⟨List.prefix_iff_getElem?.mpr fun k hk => ?_, ?_⟩
    · have he := List.getElem_mem hk
      generalize hAtK : schema.signalTable[k] = e at he ⊢
      have hHere : (numbered (overrides.strings "signal_id_names"))[k]? = some (e.id, e.name) := by
        rw [← h.table, List.getElem?_map, List.getElem?_eq_getElem hk, hAtK]
        rfl
      have hKept := getElem?_of_isPrefix (numbered_append hNew) hHere
      rw [← hTable', List.getElem?_map, Option.map_eq_some_iff] at hKept
      obtain ⟨e', hk', hSame⟩ := hKept
      obtain ⟨hId, hName⟩ := Prod.mk.inj hSame
      obtain ⟨unit, hAt, -⟩ := h.unit e he
      have hUnitId := (h.unitId_iff h' hSignalUnits hUnits he (List.mem_of_getElem? hk') hId
        hAt).mpr (hNewUnits (h.unit_mem he hAt))
      obtain ⟨id, name, unitId⟩ := e
      obtain ⟨id', name', unitId'⟩ := e'
      rw [hk', show id' = id from hId, show name' = name from hName,
        show unitId' = unitId from hUnitId]
    · rw [h.unitTable, h'.unitTable, hUnits]
      exact List.prefix_append ..

end Appended

/-- Two signals, of which the second has a unit that is not listed. -/
def firstVersion : Overrides :=
  List.toAList
    [⟨str "dbc_file", ParameterValue.string "vehicle.dbc"⟩,
      ⟨"signal_id_names", .stringArray ["pressed", "locked"]⟩,
      ⟨"signal_id_unit_names", .stringArray ["m", "s"]⟩,
      ⟨"unit_id_names", .stringArray ["m"]⟩]

/-- A third signal, with a unit of its own. -/
def secondVersion : Overrides :=
  List.toAList
    [⟨str "dbc_file", ParameterValue.string "vehicle.dbc"⟩,
      ⟨"signal_id_names", .stringArray ["pressed", "locked", "opened"]⟩,
      ⟨"signal_id_unit_names", .stringArray ["m", "s", "rad"]⟩,
      ⟨"unit_id_names", .stringArray ["m", "rad"]⟩]

/-- The unit of the second signal, listed at last. -/
def thirdVersion : Overrides :=
  List.toAList
    [⟨str "dbc_file", ParameterValue.string "vehicle.dbc"⟩,
      ⟨"signal_id_names", .stringArray ["pressed", "locked", "opened"]⟩,
      ⟨"signal_id_unit_names", .stringArray ["m", "s", "rad"]⟩,
      ⟨"unit_id_names", .stringArray ["m", "rad", "s"]⟩]

/-- The second version is a minor one, and the third is not: it gives a number to a unit that had
none. -/
theorem published_supersedes_sample :
    let schema := fun version =>
      (sampleNode (sampleNetwork 256) version).publishSchema .listed ⟨0, 0⟩
    (schema secondVersion).signalTable =
        [⟨1, "pressed", 1⟩, ⟨2, "locked", 0⟩, ⟨3, "opened", 2⟩] ∧
      (schema secondVersion).Supersedes (schema firstVersion) ∧
      ¬ (schema thirdVersion).Supersedes (schema secondVersion) := by
  intro schema
  have hFirst : Constructed (sampleEnv (sampleNetwork 256)) firstVersion
    (sampleNode (sampleNetwork 256) firstVersion) := ⟨.listed, ⟨0, 0⟩, _, rfl⟩
  have hSecond : Constructed (sampleEnv (sampleNetwork 256)) secondVersion
    (sampleNode (sampleNetwork 256) secondVersion) := ⟨.listed, ⟨0, 0⟩, _, rfl⟩
  have hThird : Constructed (sampleEnv (sampleNetwork 256)) thirdVersion
    (sampleNode (sampleNetwork 256) thirdVersion) := ⟨.listed, ⟨0, 0⟩, _, rfl⟩
  have hAdded : secondVersion.strings "signal_id_names" =
      firstVersion.strings "signal_id_names" ++ [str "opened"] := rfl
  have hAddedUnits : secondVersion.strings "unit_id_names" =
      firstVersion.strings "unit_id_names" ++ [str "rad"] := rfl
  have hListed : thirdVersion.strings "signal_id_names" =
      secondVersion.strings "signal_id_names" ++ [] := rfl
  have hListedUnits : thirdVersion.strings "unit_id_names" =
      secondVersion.strings "unit_id_names" ++ [str "s"] := rfl
  have hMinor := published_supersedes_iff Rclcpp.documented_declare Rclcpp.documented_declare
    hFirst .start hSecond .start hAdded ⟨["rad"], rfl⟩ hAddedUnits .listed .listed ⟨0, 0⟩ ⟨0, 0⟩
  have hMajor := published_supersedes_iff Rclcpp.documented_declare Rclcpp.documented_declare
    hSecond .start hThird .start hListed ⟨[], rfl⟩ hListedUnits .listed .listed ⟨0, 0⟩ ⟨0, 0⟩
  refine ⟨by decide +kernel, hMinor.mpr ⟨List.disjoint_left.mpr (by decide +kernel),
    List.disjoint_left.mpr (by decide +kernel)⟩, fun h => ?_⟩
  exact absurd (List.disjoint_left.mp (hMajor.mp h).2) (by decide +kernel)

end VehicleCanNode

end VehicleCanDecoder
