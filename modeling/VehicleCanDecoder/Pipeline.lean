import VehicleCanDecoder.Decoder
import VehicleCanDecoder.Router
import VehicleCanDecoder.Transformer

/-! `resolve_signal`: the name and the domain of a decoded signal, for the live node and for the
converter.  `SignalPath` is what a configuration makes of decoded signals, as functions: the live
node and the converter are both compared with it. -/

namespace VehicleCanDecoder

structure SignalResolution where
  name : ByteString
  domain : ByteString
  deriving DecidableEq

def SignalResolution.isAssigned (res : SignalResolution) : Bool :=
  res.domain ≠ SignalRouter.kUnassignedDomain

/-- `"CAN{can_id}_{raw_name}"`. -/
def compoundKey (rawName : ByteString) (canId : UInt32) : ByteString :=
  str "CAN" ++ toDecimal canId.toNat ++ str "_" ++ rawName

/-- The name part of `resolve_signal`: the compound alias, else the bare alias. -/
def resolveName (rawName : ByteString) (canId : UInt32) (router : SignalRouter) : ByteString :=
  let compoundAlias := router.applyAlias (compoundKey rawName canId)
  if compoundAlias ≠ compoundKey rawName canId then compoundAlias else router.applyAlias rawName

/-- The domain part of `resolve_signal`: by name when any signal has a domain, else by CAN
identifier. -/
def resolveDomain (resolved : ByteString) (canId : UInt32) (router : SignalRouter)
    (signalToDomain : UnorderedMap ByteString ByteString) : ByteString :=
  if !signalToDomain.isEmpty then
    (signalToDomain.lookup resolved).getD SignalRouter.kUnassignedDomain
  else router.domainForId canId

def resolveSignal (rawName : ByteString) (canId : UInt32) (router : SignalRouter)
    (signalToDomain : UnorderedMap ByteString ByteString) : SignalResolution :=
  let resolved := resolveName rawName canId router
  ⟨resolved, resolveDomain resolved canId router signalToDomain⟩

/-! ### The schema -/

/-- The two maps of the vehicle schema. -/
structure SchemaMaps where
  domainTopics : UnorderedMap ByteString ByteString
  signalToDomain : UnorderedMap ByteString ByteString

namespace SchemaMaps

/-- The maps with one more domain of the schema. -/
def add (maps : SchemaMaps) (name topic : ByteString) (signals : List ByteString) : SchemaMaps where
  domainTopics := maps.domainTopics.insert name topic
  signalToDomain := signals.foldl (fun m sig => m.insert sig name) maps.signalToDomain

theorem lookup_foldl_const (signals : List ByteString) (domain : ByteString)
    (m : UnorderedMap ByteString ByteString) (sig : ByteString) :
    (signals.foldl (fun m sig => m.insert sig domain) m).lookup sig =
      if sig ∈ signals then some domain else m.lookup sig := by
  induction signals generalizing m with
  | nil => simp
  | cons s rest ih =>
    rw [List.foldl_cons, ih, UnorderedMap.lookup_insert_eq]
    by_cases hRest : sig ∈ rest
    · simp [hRest]
    · by_cases hHere : sig = s <;> simp [hRest, hHere]

variable (names : List ByteString) (topic : ByteString → ByteString)
  (signals : ByteString → List ByteString)

/-- The maps of a whole schema. -/
def ofNames : SchemaMaps :=
  names.foldl (fun maps name => maps.add name (topic name) (signals name)) ⟨∅, ∅⟩

theorem ofNames_concat (name : ByteString) :
    ofNames (names ++ [name]) topic signals =
      (ofNames names topic signals).add name (topic name) (signals name) :=
  List.foldl_concat ..

/-- The last domain that lists a signal has it. -/
theorem ofNames_signalToDomain (sig : ByteString) :
    (ofNames names topic signals).signalToDomain.lookup sig =
      (names.filter (sig ∈ signals ·)).getLast? := by
  induction names using List.reverseRecOn with
  | nil => rfl
  | append_singleton rest name ih =>
    rw [ofNames_concat, add, lookup_foldl_const, ih, List.filter_append]
    by_cases h : sig ∈ signals name <;> simp [h]

theorem ofNames_domainTopics (name : ByteString) :
    (ofNames names topic signals).domainTopics.lookup name =
      if name ∈ names then some (topic name) else none := by
  induction names using List.reverseRecOn with
  | nil => rfl
  | append_singleton rest last ih =>
    rw [ofNames_concat, add, UnorderedMap.lookup_insert_eq, ih]
    by_cases h : name = last
    · simp [h]
    · simp [h]

theorem ofNames_isEmpty :
    (ofNames names topic signals).signalToDomain.isEmpty = true ↔
      ∀ name ∈ names, signals name = [] := by
  rw [UnorderedMap.isEmpty_iff]
  simp only [ofNames_signalToDomain, List.getLast?_eq_none_iff, List.filter_eq_nil_iff,
    decide_eq_true_eq]
  constructor
  · intro h name hName
    exact List.eq_nil_iff_forall_not_mem.mpr fun sig => h sig name hName
  · intro h sig name hName
    simp [h name hName]

end SchemaMaps

/-! ### The path of a decoded signal -/

/-- A configuration, as the functions that it comes to. -/
structure SignalPath where
  resolve : ByteString → UInt32 → SignalResolution
  transform : ByteString → Double → Except StdException Double
  nameId : ByteString → UInt16

/-- A decoded signal whose transform did not throw. -/
structure PassedSignal where
  res : SignalResolution
  value : Double
  signal : Signal
  deriving DecidableEq

namespace SignalPath

def of (X : Exprtk) (router : SignalRouter) (signalToDomain : UnorderedMap ByteString ByteString)
    (transformer : SignalTransformer) (signalNameToId : UnorderedMap ByteString UInt16) :
    SignalPath where
  resolve rawName canId := resolveSignal rawName canId router signalToDomain
  transform name rawValue := (transformer.transform X name rawValue).1.map TransformResult.value
  nameId name := (signalNameToId.lookup name).getD 0

/-- Neither the variables of the expressions nor the layout of the router's map matter. -/
theorem of_congr {X : Exprtk} {t t' : SignalTransformer} {router router' : SignalRouter}
    (h : t.installed = t'.installed) (hAliases : router.aliases = router'.aliases)
    (hIds : ∀ canId, router.idToDomain.lookup canId = router'.idToDomain.lookup canId)
    (signalToDomain : UnorderedMap ByteString ByteString)
    (signalNameToId : UnorderedMap ByteString UInt16) :
    SignalPath.of X router signalToDomain t signalNameToId =
      SignalPath.of X router' signalToDomain t' signalNameToId := by
  have hAlias : router.applyAlias = router'.applyAlias := by
    funext name
    rw [SignalRouter.applyAlias, SignalRouter.applyAlias, hAliases]
  have hDomain : router.domainForId = router'.domainForId := by
    funext canId
    rw [SignalRouter.domainForId, SignalRouter.domainForId, hIds]
  have hResolve : ∀ rawName canId, resolveSignal rawName canId router signalToDomain =
      resolveSignal rawName canId router' signalToDomain := by
    intro rawName canId
    have hName : resolveName rawName canId router = resolveName rawName canId router' := by
      simp only [resolveName, hAlias]
    rw [resolveSignal, resolveSignal, hName, resolveDomain, resolveDomain, hDomain]
  simp only [of, hResolve, SignalTransformer.transform_congr X h]

variable (path : SignalPath) (canId : UInt32)

def pass (raw : RawSignal) : Option PassedSignal :=
  let res := path.resolve raw.name canId
  match path.transform res.name raw.value with
  | .ok value => some ⟨res, value, ⟨path.nameId res.name, value.toSingle⟩⟩
  | .error _ => none

/-- The signals whose transform did not throw, in decode order. -/
def passed (decoded : List RawSignal) : List PassedSignal := decoded.filterMap (path.pass canId)

/-- Those of them that resolve to a domain. -/
def assigned (decoded : List RawSignal) : List PassedSignal :=
  (path.passed canId decoded).filter (·.res.isAssigned)

/-- The signals of a frame that go to a domain. -/
def inDomain (decoded : List RawSignal) (domain : ByteString) : List Signal :=
  ((path.assigned canId decoded).filter (·.res.domain = domain)).map PassedSignal.signal

theorem pass_signal {raw : RawSignal} {r : PassedSignal} (h : path.pass canId raw = some r) :
    r.res = path.resolve raw.name canId ∧
      path.transform r.res.name raw.value = .ok r.value ∧
      r.signal = ⟨path.nameId r.res.name, r.value.toSingle⟩ := by
  unfold pass at h
  cases hTransform : path.transform (path.resolve raw.name canId).name raw.value with
  | error e => simp [hTransform] at h
  | ok value =>
    simp only [hTransform, Option.some.injEq] at h
    subst h
    exact ⟨rfl, hTransform, rfl⟩

/-- The signal is assigned, and its transform throws. -/
def Throws (raw : RawSignal) : Prop :=
  (path.resolve raw.name canId).isAssigned ∧
    ∃ e, path.transform (path.resolve raw.name canId).name raw.value = .error e

/-- A signal that passes and resolves to a domain. -/
def assign (raw : RawSignal) : Option PassedSignal :=
  (path.pass canId raw).filter (·.res.isAssigned)

theorem assign_of_throws {raw : RawSignal} (h : path.pass canId raw = none) :
    path.assign canId raw = none := by
  rw [assign, h]
  rfl

theorem assign_of_pass {raw : RawSignal} {r : PassedSignal} (h : path.pass canId raw = some r) :
    path.assign canId raw = if r.res.isAssigned then some r else none := by
  rw [assign, h]
  rfl

theorem assign_of_not_assigned {raw : RawSignal}
    (h : (path.resolve raw.name canId).isAssigned = false) : path.assign canId raw = none := by
  cases hPass : path.pass canId raw with
  | none => exact path.assign_of_throws canId hPass
  | some r => rw [path.assign_of_pass canId hPass, (path.pass_signal canId hPass).1, h]; rfl

theorem assign_of_assigned {raw : RawSignal}
    (h : (path.resolve raw.name canId).isAssigned = true) :
    path.assign canId raw = path.pass canId raw := by
  cases hPass : path.pass canId raw with
  | none => simp [assign, hPass]
  | some r => simp [assign, hPass, Option.filter, (path.pass_signal canId hPass).1, h]

theorem assigned_eq (decoded : List RawSignal) :
    path.assigned canId decoded = decoded.filterMap (path.assign canId) :=
  List.filter_filterMap

end SignalPath

end VehicleCanDecoder
