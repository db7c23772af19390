import VehicleCanDecoder.Frames

/-! Which decoded signals are put into groups.  The documentation has two modes, by whether
`schema_domain_names` is empty.  The code tells the modes apart by whether any signal has a domain,
and an unassigned signal by the name of its domain, so it departs from the documentation for a
schema without signals and for domains that are called "unassigned". -/

namespace VehicleCanDecoder

namespace Overrides

variable (overrides : Overrides)

/-- The last domain of the schema that lists a signal. -/
def lastSchemaDomain (sig : ByteString) : Option ByteString :=
  ((overrides.strings "schema_domain_names").filter (sig ∈ overrides.schemaSignals ·)).getLast?

/-- The last domain that lists a CAN identifier. -/
def lastCanDomain (canId : UInt32) : Option ByteString :=
  (SignalRouter.lastDomainWith overrides.domains canId).map DomainConfig.name

/-- The signals that the documentation lets into groups: with a schema, those that it lists; without
one, those of the listed CAN identifiers. -/
def Listed (canId : UInt32) (name : ByteString) : Prop :=
  if overrides.strings "schema_domain_names" ≠ [] then
    ∃ domain ∈ overrides.strings "schema_domain_names", name ∈ overrides.schemaSignals domain
  else
    ∃ domain ∈ overrides.strings "domain_names", ∃ id ∈ overrides.canIds domain,
      id.toInt = canId.toNat

/-- Where the code follows the documentation. -/
def RoutesAsListed (canId : UInt32) (name : ByteString) : Prop :=
  if overrides.strings "schema_domain_names" = [] then
    overrides.lastCanDomain canId ≠ some SignalRouter.kUnassignedDomain
  else if ∀ domain ∈ overrides.strings "schema_domain_names",
      overrides.schemaSignals domain = [] then
    overrides.lastCanDomain canId = none ∨
      overrides.lastCanDomain canId = some SignalRouter.kUnassignedDomain
  else overrides.lastSchemaDomain name ≠ some SignalRouter.kUnassignedDomain

theorem lastSchemaDomain_isSome (sig : ByteString) : (overrides.lastSchemaDomain sig).isSome ↔
    ∃ domain ∈ overrides.strings "schema_domain_names", sig ∈ overrides.schemaSignals domain := by
  unfold lastSchemaDomain
  rw [List.getLast?_isSome, ne_eq, List.filter_eq_nil_iff]
  simp

theorem toUInt32_eq_iff {id : Int64} (h : CanIdInRange id) (canId : UInt32) :
    id.toUInt64.toUInt32 = canId ↔ id.toInt = canId.toNat := by
  obtain ⟨hLow, hHigh⟩ := h
  have hNat : (id.toUInt64.toUInt32.toNat : Int) = id.toInt := by
    have hPos : (0 : Int64) ≤ id := Int64.le_iff_toInt_le.mpr hLow
    rw [UInt64.toNat_toUInt32, Int64.toNat_toUInt64_of_le hPos, Int64.toNatClampNeg]
    omega
  rw [← UInt32.toNat_inj]
  omega

theorem lastCanDomain_isSome
    (hRange : ∀ name ∈ overrides.strings "domain_names", ∀ id ∈ overrides.canIds name,
      CanIdInRange id) (canId : UInt32) :
    (overrides.lastCanDomain canId).isSome ↔
      ∃ domain ∈ overrides.strings "domain_names", ∃ id ∈ overrides.canIds domain,
        id.toInt = canId.toNat := by
  have hMem : ∀ name, canId ∈ (overrides.domain name).canIds ↔
      ∃ id ∈ overrides.canIds name, id.toUInt64.toUInt32 = canId := by
    intro name
    have h := UnorderedSet.mem_foldl_insert ((overrides.canIds name).map
      fun id => id.toUInt64.toUInt32) ∅ canId
    rw [List.foldl_map] at h
    exact h.trans (by simp)
  unfold lastCanDomain
  rw [Option.isSome_map, SignalRouter.lastDomainWith_isSome, domains]
  simp only [List.mem_map, exists_exists_and_eq_and, hMem]
  exact exists_congr fun name => and_congr_right fun hName => exists_congr fun id =>
    and_congr_right fun hId => toUInt32_eq_iff (hRange name hName id hId) canId

end Overrides

namespace VehicleCanNode

/-- The loop body pushes the signal into the buffer that the groups are made of. -/
def PutsIntoGroup (E : Env) (canId : UInt32) (n : VehicleCanNode) (raw : RawSignal) : Prop :=
  ∃ domain sigMsg, (processSignal E canId n raw).1.frameSignals =
    n.frameSignals.pushBack domain sigMsg

variable {E : Env}

theorem putsIntoGroup_iff {canId : UInt32} {n : VehicleCanNode} {raw : RawSignal}
    (hPass : ((n.path E).pass canId raw).isSome) : PutsIntoGroup E canId n raw ↔
      ((n.path E).resolve raw.name canId).isAssigned = true := by
  obtain ⟨r, hr⟩ := Option.isSome_iff_exists.mp hPass
  have hRes := ((n.path E).pass_signal canId hr).1
  have hFrame := processSignal_frameSignals (E := E) canId n raw
  unfold SignalPath.assign at hFrame
  rw [hr] at hFrame
  rw [← hRes]
  by_cases hAssigned : r.res.isAssigned = true
  · simp only [Option.filter, hAssigned, if_true] at hFrame
    exact iff_of_true ⟨_, _, hFrame⟩ hAssigned
  · simp only [Option.filter, hAssigned, Bool.false_eq_true, if_false] at hFrame
    refine iff_of_false ?_ hAssigned
    rintro ⟨domain, sigMsg, hPushed⟩
    -- A buffer that has grown is not the buffer.
    have hLookup := congrArg (AList.lookup domain) (hFrame.symm.trans hPushed)
    have hLength := congrArg (fun l => (l.getD []).length) hLookup
    simp [UnorderedMap.pushBack] at hLength

theorem resolve_domain {overrides : Overrides} {order : HashOrder} {l : Loaded}
    (h : Configured E overrides order l) (rawName : ByteString) (canId : UInt32) :
    let res := resolveSignal rawName canId l.router l.params.signalToDomain
    res.domain =
      if ∀ domain ∈ overrides.strings "schema_domain_names",
          overrides.schemaSignals domain = [] then
        (overrides.lastCanDomain canId).getD SignalRouter.kUnassignedDomain
      else (overrides.lastSchemaDomain res.name).getD SignalRouter.kUnassignedDomain := by
  intro res
  have hSchema : l.params.signalToDomain = overrides.schema.signalToDomain := by
    rw [h.params]
    rfl
  show resolveDomain res.name canId l.router l.params.signalToDomain = _
  unfold resolveDomain SignalRouter.domainForId
  rw [hSchema, Overrides.schema, SchemaMaps.ofNames_signalToDomain, h.router,
    SignalRouter.configure_idToDomain]
  have hEmpty := SchemaMaps.ofNames_isEmpty (overrides.strings "schema_domain_names")
    overrides.schemaTopic overrides.schemaSignals
  by_cases hSignals : ∀ domain ∈ overrides.strings "schema_domain_names",
      overrides.schemaSignals domain = []
  · rw [if_pos hSignals, hEmpty.mpr hSignals]
    rfl
  · rw [if_neg hSignals, if_pos (by simpa using mt hEmpty.mp hSignals)]
    rfl

/-- A schema whose only domain lists no signal. -/
def emptySchema : Overrides :=
  List.toAList
    [⟨str "dbc_file", ParameterValue.string "vehicle.dbc"⟩,
      ⟨"domain_names", .stringArray ["chassis"]⟩,
      ⟨"domains.chassis.can_ids", .integerArray [256]⟩,
      ⟨"schema_domain_names", .stringArray ["dynamics"]⟩]

/-- A domain of CAN identifiers that is called "unassigned". -/
def domainUnassigned : Overrides :=
  List.toAList
    [⟨str "dbc_file", ParameterValue.string "vehicle.dbc"⟩,
      ⟨"domain_names", .stringArray ["unassigned"]⟩,
      ⟨"domains.unassigned.can_ids", .integerArray [256]⟩]

end VehicleCanNode

end VehicleCanDecoder
