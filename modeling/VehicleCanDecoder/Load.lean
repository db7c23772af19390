import VehicleCanDecoder.Parameters
import VehicleCanDecoder.Pipeline

/-! `declare_parameters` and `load_parameters`: the configuration of the live node. -/

namespace VehicleCanDecoder

structure PromotedSignalConfig where
  dbcName : ByteString
  topicSuffix : ByteString
  deriving DecidableEq

/-- The members of the node that the parameters fill. -/
structure NodeParams where
  canTopic : ByteString
  dbcFile : ByteString
  signalTimeoutMs : UInt64
  publishAllSignals : Bool
  allSignalsTopic : ByteString
  diagnosticsTopic : ByteString
  diagnosticsRateHz : Double
  schemaPublishPerDomain : Bool
  schemaRepublishIntervalS : Double
  promotedSignals : List PromotedSignalConfig
  signalToDomain : UnorderedMap ByteString ByteString
  schemaDomainTopics : UnorderedMap ByteString ByteString
  schemaVersion : ByteString
  signalNameToId : UnorderedMap ByteString UInt16
  signalIdToUnitId : UnorderedMap UInt16 UInt16
  unitNameToId : UnorderedMap ByteString UInt16
  unitIdNames : List ByteString

/-- What `load_parameters` leaves in the node. -/
structure Loaded where
  params : NodeParams
  decoder : DbcDecoder
  router : SignalRouter
  transformer : SignalTransformer

/-- What is outside the node: the libraries, the DBC files by name, and the readings of the steady
clock in milliseconds, one after the other. -/
structure Env where
  exprtk : Exprtk
  rclcpp : Rclcpp
  openDbc : ByteString → DbcSource
  steadyClock : Nat → UInt64

variable (E : Env) (overrides : Overrides)

/-- The bit pattern of `1.0`. -/
def one : Double := 0x3FF0000000000000

def declareParameters : Load PUnit := do
  declareParameter E.rclcpp overrides "can_topic" (.string "/vehicle/from_can_bus")
  declareParameter E.rclcpp overrides "dbc_file" (.string "")
  declareParameter E.rclcpp overrides "signal_timeout_ms" (.int 500)
  declareParameter E.rclcpp overrides "publish_all_signals" (.bool true)
  declareParameter E.rclcpp overrides "all_signals_topic" (.string "/vehicle/decoded_can")
  declareParameter E.rclcpp overrides "diagnostics_topic" (.string "/vehicle/diagnostics")
  declareParameter E.rclcpp overrides "diagnostics_rate_hz" (.double one)
  declareParameter E.rclcpp overrides "schema_domain_names" (.stringArray [])
  declareParameter E.rclcpp overrides "schema_publish_per_domain" (.bool true)
  declareParameter E.rclcpp overrides "schema_republish_interval_s" (.double one)
  declareParameter E.rclcpp overrides "schema_version" (.string "")
  declareParameter E.rclcpp overrides "signal_id_names" (.stringArray [])
  declareParameter E.rclcpp overrides "signal_id_unit_names" (.stringArray [])
  declareParameter E.rclcpp overrides "unit_id_names" (.stringArray [])

/-! ### The loops of `load_parameters` -/

def canIdRangeError (domain : ByteString) (id : Int64) : StdException :=
  ⟨str "CAN ID " ++ toSignedDecimal id.toInt ++ str " in domain '" ++ domain ++
    str "' is out of range [0, 0x1FFFFFFF]"⟩

/-- One element of `can_ids`. -/
def insertCanId (domain : ByteString) (canIds : UnorderedSet UInt32) (id : Int64) :
    Load (UnorderedSet UInt32) :=
  if id < 0 ∨ id > 0x1FFFFFFF then throw (canIdRangeError domain id)
  else pure (canIds.insert id.toUInt64.toUInt32)

/-- One element of `domain_names`. -/
def loadDomain (domains : List DomainConfig) (name : ByteString) : Load (List DomainConfig) := do
  let topicParam := str "domains." ++ name ++ str ".topic"
  let idsParam := str "domains." ++ name ++ str ".can_ids"
  declareParameter E.rclcpp overrides topicParam (.string (str "/vehicle/" ++ name))
  declareParameter E.rclcpp overrides idsParam (.integerArray [])
  let topic ← getString topicParam
  let idList ← getIntegerArray idsParam
  let canIds ← idList.foldlM (insertCanId name) ∅
  pure (domains ++ [⟨name, topic, canIds⟩])

/-- One element of `alias_names`. -/
def loadAlias (aliases : UnorderedMap ByteString ByteString) (src : ByteString) :
    Load (UnorderedMap ByteString ByteString) := do
  let param := str "aliases." ++ src
  declareParameter E.rclcpp overrides param (.string src)
  let target ← getString param
  pure (aliases.insert src target)

/-- One element of `transform_names`. -/
def loadTransform (transforms : UnorderedMap ByteString TransformConfig) (sig : ByteString) :
    Load (UnorderedMap ByteString TransformConfig) := do
  let exprParam := str "transforms." ++ sig ++ str ".expression"
  let unitParam := str "transforms." ++ sig ++ str ".unit"
  declareParameter E.rclcpp overrides exprParam (.string "")
  declareParameter E.rclcpp overrides unitParam (.string "")
  let expression ← getString exprParam
  let unit ← getString unitParam
  pure (transforms.insert sig ⟨expression, unit⟩)

/-- One element of `promoted_signal_names`. -/
def loadPromoted (promoted : List PromotedSignalConfig) (sig : ByteString) :
    Load (List PromotedSignalConfig) := do
  let suffixParam := str "promoted_signals." ++ sig ++ str ".topic_suffix"
  declareParameter E.rclcpp overrides suffixParam (.string sig)
  let topicSuffix ← getString suffixParam
  pure (promoted ++ [⟨sig, topicSuffix⟩])

/-- One element of `schema_domain_names`. -/
def loadSchemaDomain (maps : SchemaMaps) (name : ByteString) : Load SchemaMaps := do
  let topicParam := str "schema." ++ name ++ str ".topic"
  let sigsParam := str "schema." ++ name ++ str ".signals"
  declareParameter E.rclcpp overrides topicParam (.string (str "/vehicle/" ++ name))
  declareParameter E.rclcpp overrides sigsParam (.stringArray [])
  let topic ← getString topicParam
  let domainSignals ← getStringArray sigsParam
  pure (maps.add name topic domainSignals)

/-- The loop that numbers the names of a list from 1: a later entry overwrites. -/
def numberNames (names : List ByteString) : UnorderedMap ByteString UInt16 :=
  names.zipIdx.foldl (fun m e => m.insert e.1 (UInt16.ofNat (e.2 + 1))) ∅

/-- The unit of each signal id, by the parallel list of unit names. -/
def numberUnits (unitNameToId : UnorderedMap ByteString UInt16) (unitNames : List ByteString) :
    UnorderedMap UInt16 UInt16 :=
  unitNames.zipIdx.foldl (fun m e =>
    match unitNameToId.lookup e.1 with
    | some unitId => m.insert (UInt16.ofNat (e.2 + 1)) unitId
    | none => m) ∅

/-! ### `load_parameters` -/

def requirePositive (name : ByteString) (isPositive : Bool) (text : ByteString) : Load PUnit :=
  if isPositive then pure ()
  else throw ⟨str "Parameter '" ++ name ++ str "' must be positive, got: " ++ text⟩

def requireUnitNames (signalIdNames signalIdUnitNames : List ByteString) : Load PUnit :=
  if signalIdNames ≠ [] ∧ signalIdUnitNames.length ≠ signalIdNames.length then
    throw ⟨"signal_id_unit_names must have the same length as signal_id_names"⟩
  else pure ()

def requireAtMost65535 (name : ByteString) (size : Nat) : Load PUnit :=
  if 0xFFFF < size then
    throw ⟨name ++ str " exceeds maximum of 65535 entries: " ++ toDecimal size⟩
  else pure ()

def loadDbc (dbcFile : ByteString) : Load DbcDecoder :=
  if dbcFile = [] then throw ⟨"Parameter 'dbc_file' must not be empty."⟩
  else
    match DbcDecoder.fresh.load (E.openDbc dbcFile) with
    | some (decoder, true) => pure decoder
    | _ => throw ⟨str "Failed to load DBC file: " ++ dbcFile⟩

/-- `transformer_.configure`, whose state is a member of the node. -/
def configureTransformer (order : HashOrder) (transforms : UnorderedMap ByteString TransformConfig) :
    Load SignalTransformer :=
  match SignalTransformer.configure E.exprtk order transforms SignalTransformer.empty with
  | .ok _ transformer => pure transformer
  | .error e _ => throw e

def loadParameters (order : HashOrder) : Load Loaded := do
  let canTopic ← getString "can_topic"
  let dbcFile ← getString "dbc_file"
  let diagnosticsRateHz ← getDouble "diagnostics_rate_hz"
  requirePositive "diagnostics_rate_hz" (!diagnosticsRateHz.leZero) diagnosticsRateHz.toFixed
  let rawTimeout ← getInt "signal_timeout_ms"
  requirePositive "signal_timeout_ms" (0 < rawTimeout) (toSignedDecimal rawTimeout.toInt)
  let publishAllSignals ← getBool "publish_all_signals"
  let allSignalsTopic ← getString "all_signals_topic"
  let diagnosticsTopic ← getString "diagnostics_topic"
  let schemaPublishPerDomain ← getBool "schema_publish_per_domain"
  let schemaRepublishIntervalS ← getDouble "schema_republish_interval_s"
  requirePositive "schema_republish_interval_s" (!schemaRepublishIntervalS.leZero)
    schemaRepublishIntervalS.toFixed
  let decoder ← loadDbc E dbcFile
  declareParameter E.rclcpp overrides "domain_names" (.stringArray [])
  let domainNames ← getStringArray "domain_names"
  let domains ← domainNames.foldlM (loadDomain E overrides) []
  declareParameter E.rclcpp overrides "alias_names" (.stringArray [])
  let aliasNames ← getStringArray "alias_names"
  let aliases ← aliasNames.foldlM (loadAlias E overrides) ∅
  let router := (SignalRouter.configure order SignalRouter.empty domains aliases).1
  declareParameter E.rclcpp overrides "transform_names" (.stringArray [])
  let transformNames ← getStringArray "transform_names"
  let transforms ← transformNames.foldlM (loadTransform E overrides) ∅
  let transformer ← configureTransformer E order transforms
  declareParameter E.rclcpp overrides "promoted_signal_names" (.stringArray [])
  let promotedNames ← getStringArray "promoted_signal_names"
  let promotedSignals ← promotedNames.foldlM (loadPromoted E overrides) []
  let schemaNames ← getStringArray "schema_domain_names"
  let schema ← schemaNames.foldlM (loadSchemaDomain E overrides) ⟨∅, ∅⟩
  let schemaVersion ← getString "schema_version"
  let signalIdNames ← getStringArray "signal_id_names"
  let signalIdUnitNames ← getStringArray "signal_id_unit_names"
  let unitIdNames ← getStringArray "unit_id_names"
  requireUnitNames signalIdNames signalIdUnitNames
  requireAtMost65535 "unit_id_names" unitIdNames.length
  requireAtMost65535 "signal_id_names" signalIdNames.length
  let unitNameToId := numberNames unitIdNames
  pure
    { decoder
      router
      transformer
      params :=
        { canTopic
          dbcFile
          signalTimeoutMs := rawTimeout.toUInt64
          publishAllSignals
          allSignalsTopic
          diagnosticsTopic
          diagnosticsRateHz
          schemaPublishPerDomain
          schemaRepublishIntervalS
          promotedSignals
          signalToDomain := schema.signalToDomain
          schemaDomainTopics := schema.domainTopics
          schemaVersion
          signalNameToId := numberNames signalIdNames
          signalIdToUnitId :=
            if signalIdNames = [] then ∅ else numberUnits unitNameToId signalIdUnitNames
          unitNameToId
          unitIdNames } }

end VehicleCanDecoder
