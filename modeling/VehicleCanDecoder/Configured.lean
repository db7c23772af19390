import VehicleCanDecoder.Load

/-! What `load_parameters` leaves in the node, as functions of the overrides.  A parameter that has
been declared holds its override or its default, and keeps it; so every loop of `load_parameters` is
a fold of a function of the overrides over a list of names. -/

namespace VehicleCanDecoder

open Hoare

/-! ### The settings that the overrides denote -/

namespace Overrides

variable (overrides : Overrides)

def strings (name : ByteString) : List ByteString :=
  overrides.value ParameterValue.asStringArray name []

def text (name default : ByteString) : ByteString :=
  overrides.value ParameterValue.asString name default

def canIds (name : ByteString) : List Int64 :=
  overrides.value ParameterValue.asIntegerArray (str "domains." ++ name ++ str ".can_ids") []

def domain (name : ByteString) : DomainConfig where
  name := name
  topic := overrides.text (str "domains." ++ name ++ str ".topic") (str "/vehicle/" ++ name)
  canIds := (overrides.canIds name).foldl (fun ids id => ids.insert id.toUInt64.toUInt32) ∅

def domains : List DomainConfig := (overrides.strings "domain_names").map overrides.domain

def aliases : UnorderedMap ByteString ByteString :=
  (overrides.strings "alias_names").foldl
    (fun m src => m.insert src (overrides.text (str "aliases." ++ src) src)) ∅

def transform (sig : ByteString) : TransformConfig where
  expression := overrides.text (str "transforms." ++ sig ++ str ".expression") ""
  unit := overrides.text (str "transforms." ++ sig ++ str ".unit") ""

def transforms : UnorderedMap ByteString TransformConfig :=
  (overrides.strings "transform_names").foldl (fun m sig => m.insert sig (overrides.transform sig)) ∅

def promoted : List PromotedSignalConfig :=
  (overrides.strings "promoted_signal_names").map fun sig =>
    ⟨sig, overrides.text (str "promoted_signals." ++ sig ++ str ".topic_suffix") sig⟩

def schemaTopic (name : ByteString) : ByteString :=
  overrides.text (str "schema." ++ name ++ str ".topic") (str "/vehicle/" ++ name)

def schemaSignals (name : ByteString) : List ByteString :=
  overrides.strings (str "schema." ++ name ++ str ".signals")

def schema : SchemaMaps :=
  SchemaMaps.ofNames (overrides.strings "schema_domain_names") overrides.schemaTopic
    overrides.schemaSignals

/-- The members of the node, for a launch that the loader accepts. -/
def params : NodeParams :=
  let signalIdNames := overrides.strings "signal_id_names"
  let unitIdNames := overrides.strings "unit_id_names"
  { canTopic := overrides.text "can_topic" "/vehicle/from_can_bus"
    dbcFile := overrides.text "dbc_file" ""
    signalTimeoutMs := (overrides.value ParameterValue.asInt "signal_timeout_ms" 500).toUInt64
    publishAllSignals := overrides.value ParameterValue.asBool "publish_all_signals" true
    allSignalsTopic := overrides.text "all_signals_topic" "/vehicle/decoded_can"
    diagnosticsTopic := overrides.text "diagnostics_topic" "/vehicle/diagnostics"
    diagnosticsRateHz := overrides.value ParameterValue.asDouble "diagnostics_rate_hz" one
    schemaPublishPerDomain :=
      overrides.value ParameterValue.asBool "schema_publish_per_domain" true
    schemaRepublishIntervalS :=
      overrides.value ParameterValue.asDouble "schema_republish_interval_s" one
    promotedSignals := overrides.promoted
    signalToDomain := overrides.schema.signalToDomain
    schemaDomainTopics := overrides.schema.domainTopics
    schemaVersion := overrides.text "schema_version" ""
    signalNameToId := numberNames signalIdNames
    signalIdToUnitId :=
      if signalIdNames = [] then ∅
      else numberUnits (numberNames unitIdNames) (overrides.strings "signal_id_unit_names")
    unitNameToId := numberNames unitIdNames
    unitIdNames }

end Overrides

/-! ### Declared parameters -/

/-- Each parameter of `ps`, by its name and default, is declared: it holds the override or the
default, in the type of the default. -/
def Settled (overrides : Overrides) (ps : List (ByteString × ParameterValue))
    (declared : Declared) : Prop :=
  ∀ p ∈ ps, ∃ v, declared.lookup p.1 = some v ∧ v = (overrides.lookup p.1).getD p.2 ∧
    v.type = p.2.type

/-- An override of the parameter, if there is one, has the type. -/
def Overrides.Typed (overrides : Overrides) (name : ByteString) (type : ParameterType) : Prop :=
  ∀ v, overrides.lookup name = some v → v.type = type

theorem Settled.typed {overrides : Overrides} {ps : List (ByteString × ParameterValue)}
    {declared : Declared} (h : Settled overrides ps declared) {name : ByteString}
    {default : ParameterValue} (hp : (name, default) ∈ ps) :
    overrides.Typed name default.type := by
  intro w hw
  obtain ⟨v, -, hValue, hType⟩ := h _ hp
  rw [hw, Option.getD_some] at hValue
  rw [← hValue]
  exact hType

theorem Settled.of_subset {overrides : Overrides} {ps ps' : List (ByteString × ParameterValue)}
    {declared : Declared} (h : Settled overrides ps declared) (hSub : ps' ⊆ ps) :
    Settled overrides ps' declared :=
  fun p hp => h p (hSub hp)

variable {E : Env} (hDeclare : E.rclcpp.DeclareDocumented) {overrides : Overrides}
  {ps : List (ByteString × ParameterValue)}

/-- Exceptions end the constructor, so nothing is said of the state that they leave. -/
abbrev Loads {α : Type} (P : Declared → Prop) (c : Load α) (Q : α → Declared → Prop) : Prop :=
  Triple P c Q fun _ _ => True

include hDeclare in
theorem declareParameter_settled (name : ByteString) (default : ParameterValue) :
    Loads (Settled overrides ps) (declareParameter E.rclcpp overrides name default)
      fun _ => Settled overrides ((name, default) :: ps) := by
  refine Triple.get_bind fun declared hs => ?_
  cases hRun : E.rclcpp.declareParameter overrides declared name default with
  | error e => exact Triple.throw fun _ _ => trivial
  | ok v =>
    refine Triple.set fun _ _ p hp => ?_
    have hNew := hDeclare.new hRun
    rcases List.mem_cons.mp hp with rfl | hp
    · exact ⟨v, by simp, hDeclare.value hRun, hDeclare.type hRun⟩
    · -- The name is new, so the parameters before it are still there.
      obtain ⟨w, hLookup, hw⟩ := hs p hp
      refine ⟨w, ?_, hw⟩
      have hNe : (p.1 == name) = false := by
        rw [beq_eq_false_iff_ne]
        rintro rfl
        rw [hNew] at hLookup
        contradiction
      rw [List.lookup_cons, hNe]
      exact hLookup

/-- Reading a declared parameter by its type gives its value. -/
theorem getParameter_settled {α : Type} {expected : ParameterType} {as : ParameterValue → Option α}
    {name : ByteString} {default : ParameterValue} {a : α} (hDefault : as default = some a)
    (hAs : ∀ v, v.type = default.type → (as v).isSome) (hp : (name, default) ∈ ps) :
    Loads (Settled overrides ps) (getParameter expected as name)
      fun x s => x = overrides.value as name a ∧ Settled overrides ps s := by
  refine Triple.get_bind fun declared hs => ?_
  rintro _ rfl
  obtain ⟨v, hLookup, hValue, hType⟩ := hs _ hp
  obtain ⟨x, hx⟩ := Option.isSome_iff_exists.mp (hAs v hType)
  have hEq : x = overrides.value as name a := by
    unfold Overrides.value
    cases hOverride : overrides.lookup name with
    | none =>
      rw [hOverride, Option.getD_none] at hValue
      rw [hValue, hDefault] at hx
      exact (Option.some.inj hx).symm
    | some w =>
      rw [hOverride, Option.getD_some] at hValue
      rw [Option.bind_some, ← hValue, hx]
      rfl
  simp only [hLookup, hx]
  exact ⟨hEq, hs⟩

theorem getString_settled {name d : ByteString} (hp : (name, ParameterValue.string d) ∈ ps) :
    Loads (Settled overrides ps) (getString name)
      fun x s => x = overrides.text name d ∧ Settled overrides ps s :=
  getParameter_settled rfl (by rintro ⟨⟩ h <;> first | rfl | contradiction) hp

theorem getStringArray_settled {name : ByteString}
    (hp : (name, ParameterValue.stringArray []) ∈ ps) :
    Loads (Settled overrides ps) (getStringArray name)
      fun x s => x = overrides.strings name ∧ Settled overrides ps s :=
  getParameter_settled rfl (by rintro ⟨⟩ h <;> first | rfl | contradiction) hp

theorem getIntegerArray_settled {name : ByteString} {d : List Int64}
    (hp : (name, ParameterValue.integerArray d) ∈ ps) :
    Loads (Settled overrides ps) (getIntegerArray name) fun x s =>
      x = overrides.value ParameterValue.asIntegerArray name d ∧ Settled overrides ps s :=
  getParameter_settled rfl (by rintro ⟨⟩ h <;> first | rfl | contradiction) hp

theorem getBool_settled {name : ByteString} {d : Bool} (hp : (name, ParameterValue.bool d) ∈ ps) :
    Loads (Settled overrides ps) (getBool name)
      fun x s => x = overrides.value ParameterValue.asBool name d ∧ Settled overrides ps s :=
  getParameter_settled rfl (by rintro ⟨⟩ h <;> first | rfl | contradiction) hp

theorem getInt_settled {name : ByteString} {d : Int64} (hp : (name, ParameterValue.int d) ∈ ps) :
    Loads (Settled overrides ps) (getInt name)
      fun x s => x = overrides.value ParameterValue.asInt name d ∧ Settled overrides ps s :=
  getParameter_settled rfl (by rintro ⟨⟩ h <;> first | rfl | contradiction) hp

theorem getDouble_settled {name : ByteString} {d : Double}
    (hp : (name, ParameterValue.double d) ∈ ps) :
    Loads (Settled overrides ps) (getDouble name)
      fun x s => x = overrides.value ParameterValue.asDouble name d ∧ Settled overrides ps s :=
  getParameter_settled rfl (by rintro ⟨⟩ h <;> first | rfl | contradiction) hp

/-! ### The loops -/

/-- The identifiers that `load_parameters` lets through. -/
def CanIdInRange (id : Int64) : Prop := 0 ≤ id.toInt ∧ id.toInt ≤ 0x1FFFFFFF

theorem insertCanId_settled (name : ByteString) (ids : UnorderedSet UInt32) (id : Int64) :
    Loads (Settled overrides ps) (insertCanId name ids id) fun ids' s =>
      ids' = ids.insert id.toUInt64.toUInt32 ∧ CanIdInRange id ∧ Settled overrides ps s := by
  unfold insertCanId
  split
  · exact Triple.throw fun _ _ => trivial
  · rename_i hRange
    rw [Int64.lt_iff_toInt_lt, gt_iff_lt, Int64.lt_iff_toInt_lt] at hRange
    refine Triple.pure fun s hs => ⟨rfl, ?_, hs⟩
    change ¬ (id.toInt < 0 ∨ 0x1FFFFFFF < id.toInt) at hRange
    exact ⟨by omega, by omega⟩

/-- What the loader checks of a domain: the types of its parameters and the range of its
identifiers. -/
structure DomainChecked (overrides : Overrides) (name : ByteString) : Prop where
  topic : overrides.Typed (str "domains." ++ name ++ str ".topic") .string
  canIds : overrides.Typed (str "domains." ++ name ++ str ".can_ids") .integerArray
  range : ∀ id ∈ overrides.canIds name, CanIdInRange id

include hDeclare in
theorem loadDomain_settled (domains : List DomainConfig) (name : ByteString) :
    Loads (Settled overrides ps) (loadDomain E overrides domains name) fun domains' s =>
      domains' = domains ++ [overrides.domain name] ∧ DomainChecked overrides name ∧
        Settled overrides ps s := by
  refine Triple.bind (declareParameter_settled hDeclare _ _) fun _ => ?_
  refine Triple.bind (declareParameter_settled hDeclare _ _) fun _ => ?_
  apply Triple.bind_eq (getString_settled (.tail _ (.head _)))
  apply Triple.bind_eq (getIntegerArray_settled (.head _))
  refine Triple.bind_eq
    (Triple.foldlM_forall _ _ fun ids id _ => insertCanId_settled name ids id) ?_
  refine Triple.assume fun hRange => Triple.pure fun s hs => ⟨rfl, ?_, hs.of_subset (by simp)⟩
  exact ⟨hs.typed (.tail _ (.head _)), hs.typed (.head _), hRange⟩

include hDeclare in
theorem loadAlias_settled (aliases : UnorderedMap ByteString ByteString) (src : ByteString) :
    Loads (Settled overrides ps) (loadAlias E overrides aliases src) fun aliases' s =>
      aliases' = aliases.insert src (overrides.text (str "aliases." ++ src) src) ∧
        overrides.Typed (str "aliases." ++ src) .string ∧ Settled overrides ps s := by
  refine Triple.bind (declareParameter_settled hDeclare _ _) fun _ => ?_
  apply Triple.bind_eq (getString_settled (.head _))
  exact Triple.pure fun s hs => ⟨rfl, hs.typed (.head _), hs.of_subset (by simp)⟩

structure TransformChecked (overrides : Overrides) (sig : ByteString) : Prop where
  expression : overrides.Typed (str "transforms." ++ sig ++ str ".expression") .string
  unit : overrides.Typed (str "transforms." ++ sig ++ str ".unit") .string

include hDeclare in
theorem loadTransform_settled (transforms : UnorderedMap ByteString TransformConfig)
    (sig : ByteString) :
    Loads (Settled overrides ps) (loadTransform E overrides transforms sig) fun transforms' s =>
      transforms' = transforms.insert sig (overrides.transform sig) ∧
        TransformChecked overrides sig ∧ Settled overrides ps s := by
  refine Triple.bind (declareParameter_settled hDeclare _ _) fun _ => ?_
  refine Triple.bind (declareParameter_settled hDeclare _ _) fun _ => ?_
  apply Triple.bind_eq (getString_settled (.tail _ (.head _)))
  apply Triple.bind_eq (getString_settled (.head _))
  refine Triple.pure fun s hs => ⟨rfl, ?_, hs.of_subset (by simp)⟩
  exact ⟨hs.typed (.tail _ (.head _)), hs.typed (.head _)⟩

include hDeclare in
theorem loadPromoted_settled (promoted : List PromotedSignalConfig) (sig : ByteString) :
    Loads (Settled overrides ps) (loadPromoted E overrides promoted sig) fun promoted' s =>
      promoted' = promoted ++
          [⟨sig, overrides.text (str "promoted_signals." ++ sig ++ str ".topic_suffix") sig⟩] ∧
        Settled overrides ps s := by
  refine Triple.bind (declareParameter_settled hDeclare _ _) fun _ => ?_
  apply Triple.bind_eq (getString_settled (.head _))
  exact Triple.pure fun s hs => ⟨rfl, hs.of_subset (by simp)⟩

structure SchemaDomainChecked (overrides : Overrides) (name : ByteString) : Prop where
  topic : overrides.Typed (str "schema." ++ name ++ str ".topic") .string
  signals : overrides.Typed (str "schema." ++ name ++ str ".signals") .stringArray

include hDeclare in
theorem loadSchemaDomain_settled (maps : SchemaMaps) (name : ByteString) :
    Loads (Settled overrides ps) (loadSchemaDomain E overrides maps name) fun maps' s =>
      maps' = maps.add name (overrides.schemaTopic name) (overrides.schemaSignals name) ∧
        SchemaDomainChecked overrides name ∧ Settled overrides ps s := by
  refine Triple.bind (declareParameter_settled hDeclare _ _) fun _ => ?_
  refine Triple.bind (declareParameter_settled hDeclare _ _) fun _ => ?_
  apply Triple.bind_eq (getString_settled (.tail _ (.head _)))
  apply Triple.bind_eq (getStringArray_settled (.head _))
  refine Triple.pure fun s hs => ⟨rfl, ?_, hs.of_subset (by simp)⟩
  exact ⟨hs.typed (.tail _ (.head _)), hs.typed (.head _)⟩

/-! ### `load_parameters` -/

/-- The parameters of `declare_parameters`, the last first. -/
def declaredFirst : List (ByteString × ParameterValue) :=
  [("unit_id_names", .stringArray []),
    ("signal_id_unit_names", .stringArray []),
    ("signal_id_names", .stringArray []),
    ("schema_version", .string ""),
    ("schema_republish_interval_s", .double one),
    ("schema_publish_per_domain", .bool true),
    ("schema_domain_names", .stringArray []),
    ("diagnostics_rate_hz", .double one),
    ("diagnostics_topic", .string "/vehicle/diagnostics"),
    ("all_signals_topic", .string "/vehicle/decoded_can"),
    ("publish_all_signals", .bool true),
    ("signal_timeout_ms", .int 500),
    ("dbc_file", .string ""),
    ("can_topic", .string "/vehicle/from_can_bus")]

include hDeclare in
theorem declareParameters_settled :
    Loads (fun _ => True) (declareParameters E overrides)
      fun _ => Settled overrides declaredFirst := by
  have hNone : ∀ declared, True → Settled overrides [] declared := fun _ _ p hp => by simp at hp
  refine Triple.pre ?_ hNone
  unfold declareParameters declaredFirst
  iterate 13 refine Triple.bind (declareParameter_settled hDeclare _ _) fun _ => ?_
  exact declareParameter_settled hDeclare _ _

/-- What `load_parameters` leaves, for overrides that it accepts. -/
structure Configured (E : Env) (overrides : Overrides) (order : HashOrder) (l : Loaded) :
    Prop where
  params : l.params = overrides.params
  decoder : ∃ network, E.openDbc (overrides.text "dbc_file" "") = .parsed network ∧
    DbcDecoder.fresh.load (.parsed network) = some (l.decoder, true)
  router : l.router =
    (SignalRouter.configure order SignalRouter.empty overrides.domains overrides.aliases).1
  transformer : ∀ name, l.transformer.installed name =
    (overrides.transforms.lookup name).bind TransformConfig.installs
  domains : ∀ name ∈ overrides.strings "domain_names", DomainChecked overrides name
  aliases : ∀ src ∈ overrides.strings "alias_names",
    overrides.Typed (str "aliases." ++ src) .string
  transforms : ∀ sig ∈ overrides.strings "transform_names", TransformChecked overrides sig
  schema : ∀ name ∈ overrides.strings "schema_domain_names", SchemaDomainChecked overrides name
  lists : ∀ name ∈ [str "domain_names", str "alias_names", str "transform_names",
    str "schema_domain_names", str "signal_id_names"], overrides.Typed name .stringArray
  timeout : 0 < (overrides.value ParameterValue.asInt "signal_timeout_ms" 500).toInt
  signalIdNames : (overrides.strings "signal_id_names").length ≤ 65535
  signalIdUnitNames : overrides.strings "signal_id_names" ≠ [] →
    (overrides.strings "signal_id_unit_names").length =
      (overrides.strings "signal_id_names").length
  unitIdNames : (overrides.strings "unit_id_names").length ≤ 65535

section Checks

variable {P : Declared → Prop}

theorem requirePositive_loads (name : ByteString) (isPositive : Bool) (text : ByteString) :
    Loads P (requirePositive name isPositive text) fun _ s => isPositive = true ∧ P s := by
  unfold requirePositive
  split
  · rename_i h
    exact Triple.pure fun s hs => ⟨h, hs⟩
  · exact Triple.throw fun _ _ => trivial

theorem requireUnitNames_loads (signalIdNames unitNames : List ByteString) :
    Loads P (requireUnitNames signalIdNames unitNames) fun _ s =>
      (signalIdNames ≠ [] → unitNames.length = signalIdNames.length) ∧ P s := by
  unfold requireUnitNames
  split
  · exact Triple.throw fun _ _ => trivial
  · rename_i h
    exact Triple.pure fun s hs => ⟨fun hNe => by_contra fun hLength => h ⟨hNe, hLength⟩, hs⟩

theorem requireAtMost65535_loads (name : ByteString) (size : Nat) :
    Loads P (requireAtMost65535 name size) fun _ s => size ≤ 65535 ∧ P s := by
  unfold requireAtMost65535
  split
  · exact Triple.throw fun _ _ => trivial
  · rename_i h
    exact Triple.pure fun s hs => ⟨by omega, hs⟩

theorem loadDbc_loads (dbcFile : ByteString) :
    Loads P (loadDbc E dbcFile) fun d s => (∃ network, E.openDbc dbcFile = .parsed network ∧
      DbcDecoder.fresh.load (.parsed network) = some (d, true)) ∧ P s := by
  unfold loadDbc
  split
  · exact Triple.throw fun _ _ => trivial
  · cases hSource : E.openDbc dbcFile with
    | parsed network => exact Triple.pure fun s hs => ⟨⟨network, rfl, rfl⟩, hs⟩
    | _ => exact Triple.throw fun _ _ => trivial

theorem configureTransformer_loads (order : HashOrder)
    (transforms : UnorderedMap ByteString TransformConfig) :
    Loads P (configureTransformer E order transforms) fun t s =>
      (∀ name, t.installed name = (transforms.lookup name).bind TransformConfig.installs) ∧ P s := by
  unfold configureTransformer
  split
  · rename_i hRun
    exact Triple.pure fun s hs => ⟨SignalTransformer.configure_ok _ hRun, hs⟩
  · exact Triple.throw fun _ _ => trivial

end Checks

include hDeclare in
theorem loadParameters_loads (order : HashOrder) :
    Loads (Settled overrides declaredFirst) (loadParameters E overrides order) fun l s =>
      Configured E overrides order l ∧ Settled overrides [("domain_names", .stringArray [])] s := by
  unfold loadParameters
  apply Triple.bind_eq (getString_settled (d := "/vehicle/from_can_bus") (by simp [declaredFirst]))
  apply Triple.bind_eq (getString_settled (d := "") (by simp [declaredFirst]))
  apply Triple.bind_eq (getDouble_settled (d := one) (by simp [declaredFirst]))
  refine Triple.bind (requirePositive_loads _ _ _) fun _ => Triple.assume fun hRate => ?_
  apply Triple.bind_eq (getInt_settled (d := 500) (by simp [declaredFirst]))
  refine Triple.bind (requirePositive_loads _ _ _) fun _ => Triple.assume fun hTimeout => ?_
  apply Triple.bind_eq (getBool_settled (d := true) (by simp [declaredFirst]))
  apply Triple.bind_eq (getString_settled (d := "/vehicle/decoded_can") (by simp [declaredFirst]))
  apply Triple.bind_eq (getString_settled (d := "/vehicle/diagnostics") (by simp [declaredFirst]))
  apply Triple.bind_eq (getBool_settled (d := true) (by simp [declaredFirst]))
  apply Triple.bind_eq (getDouble_settled (d := one) (by simp [declaredFirst]))
  refine Triple.bind (requirePositive_loads _ _ _) fun _ => Triple.assume fun hInterval => ?_
  refine Triple.bind (loadDbc_loads _) fun decoder => Triple.assume fun hDecoder => ?_
  refine Triple.bind (declareParameter_settled hDeclare _ _) fun _ => ?_
  apply Triple.bind_eq (getStringArray_settled (.head _))
  refine Triple.bind_eq (Triple.foldlM_forall _ _ fun ds name _ =>
    loadDomain_settled hDeclare ds name) ?_
  refine Triple.assume fun hDomains => ?_
  refine Triple.bind (declareParameter_settled hDeclare _ _) fun _ => ?_
  apply Triple.bind_eq (getStringArray_settled (.head _))
  refine Triple.bind_eq (Triple.foldlM_forall _ _ fun m src _ => loadAlias_settled hDeclare m src) ?_
  refine Triple.assume fun hAliases => ?_
  refine Triple.bind (declareParameter_settled hDeclare _ _) fun _ => ?_
  apply Triple.bind_eq (getStringArray_settled (.head _))
  refine Triple.bind_eq (Triple.foldlM_forall _ _ fun m sig _ =>
    loadTransform_settled hDeclare m sig) ?_
  refine Triple.assume fun hTransforms => ?_
  refine Triple.bind (configureTransformer_loads _ _) fun transformer => ?_
  refine Triple.assume fun hTransformer => ?_
  refine Triple.bind (declareParameter_settled hDeclare _ _) fun _ => ?_
  apply Triple.bind_eq (getStringArray_settled (.head _))
  refine Triple.bind_eq (Triple.foldlM_eq _ _ fun l sig _ => loadPromoted_settled hDeclare l sig) ?_
  apply Triple.bind_eq (getStringArray_settled (by simp [declaredFirst]))
  refine Triple.bind_eq (Triple.foldlM_forall _ _ fun m name _ =>
    loadSchemaDomain_settled hDeclare m name) ?_
  refine Triple.assume fun hSchema => ?_
  apply Triple.bind_eq (getString_settled (d := "") (by simp [declaredFirst]))
  apply Triple.bind_eq (getStringArray_settled (by simp [declaredFirst]))
  apply Triple.bind_eq (getStringArray_settled (by simp [declaredFirst]))
  apply Triple.bind_eq (getStringArray_settled (by simp [declaredFirst]))
  refine Triple.bind (requireUnitNames_loads _ _) fun _ => Triple.assume fun hUnitNames => ?_
  refine Triple.bind (requireAtMost65535_loads _ _) fun _ => Triple.assume fun hUnits => ?_
  refine Triple.bind (requireAtMost65535_loads _ _) fun _ => Triple.assume fun hSignals => ?_
  refine Triple.pure fun s hs => ⟨?_, hs.of_subset (by simp)⟩
  simp only [foldl_concat_map, List.nil_append]
  exact
    { params := rfl
      decoder := hDecoder
      router := rfl
      transformer := hTransformer
      domains := hDomains
      aliases := hAliases
      transforms := hTransforms
      schema := hSchema
      lists := fun name hName => by
        simp only [List.mem_cons, List.not_mem_nil, or_false] at hName
        rcases hName with rfl | rfl | rfl | rfl | rfl <;>
          exact hs.typed (by simp [declaredFirst] : (_, ParameterValue.stringArray []) ∈ _)
      timeout := Int64.lt_iff_toInt_lt.mp (of_decide_eq_true hTimeout)
      signalIdNames := hSignals
      signalIdUnitNames := hUnitNames
      unitIdNames := hUnits }

end VehicleCanDecoder
