import VehicleCanDecoder.Load

/-! The converter's configuration: `get_s`, `get_sv` and `get_iv` read flattened YAML parameters,
with a default for whatever is missing or malformed, and `build_config` collects them. -/

namespace VehicleCanDecoder

/-- `YAML::Node`. -/
inductive YamlNode
  | null
  | scalar (s : ByteString)
  | sequence (l : List YamlNode)
  | map (entries : List (YamlNode × YamlNode))

/-- The conversions of the YAML library: none where they throw. -/
structure YamlCpp where
  asString : YamlNode → Option ByteString
  asInt64 : YamlNode → Option Int64

abbrev ParamMap := UnorderedMap ByteString YamlNode

namespace Converter

structure Config where
  canTopic : ByteString
  domains : List DomainConfig
  aliases : UnorderedMap ByteString ByteString
  transforms : UnorderedMap ByteString TransformConfig
  signalToDomain : UnorderedMap ByteString ByteString
  schemaDomainTopics : UnorderedMap ByteString ByteString
  signalNameToId : UnorderedMap ByteString UInt16

section Getters

variable (Y : YamlCpp) (p : ParamMap)

def getS (k : ByteString) (default : ByteString) : ByteString :=
  match p.lookup k with
  | none => default
  | some node => (Y.asString node).getD default

/-- The elements of a sequence that convert; `get_sv` and `get_iv`. -/
def getVector {α : Type} (as : YamlNode → Option α) (k : ByteString) : List α :=
  match p.lookup k with
  | some (.sequence l) => l.filterMap as
  | _ => []

def getSv (k : ByteString) : List ByteString := getVector p Y.asString k

def getIv (k : ByteString) : List Int64 := getVector p Y.asInt64 k

end Getters

/-- Where every element converts, none is left out. -/
theorem filterMap_of_map_eq {α β : Type} {as : α → Option β} {l : List α} {vs : List β}
    (h : l.map as = vs.map some) : l.filterMap as = vs := by
  have hIds := congrArg (List.filterMap id) h
  simpa [List.filterMap_map] using hIds

section Build

variable (Y : YamlCpp) (p : ParamMap)

/-- One element of `domain_names`. -/
def buildDomain (name : ByteString) : DomainConfig where
  name := name
  topic := getS Y p (str "domains." ++ name ++ str ".topic") (str "/vehicle/" ++ name)
  canIds := (getIv Y p (str "domains." ++ name ++ str ".can_ids")).foldl
    (fun ids id => ids.insert id.toUInt64.toUInt32) ∅

def buildAliases : UnorderedMap ByteString ByteString :=
  (getSv Y p "alias_names").foldl
    (fun m src => m.insert src (getS Y p (str "aliases." ++ src) src)) ∅

def buildTransform (sig : ByteString) : TransformConfig where
  expression := getS Y p (str "transforms." ++ sig ++ str ".expression") ""
  unit := getS Y p (str "transforms." ++ sig ++ str ".unit") ""

def buildSchema : SchemaMaps :=
  (getSv Y p "schema_domain_names").foldl (fun maps name => maps.add name
    (getS Y p (str "schema." ++ name ++ str ".topic") (str "/vehicle/" ++ name))
    (getSv Y p (str "schema." ++ name ++ str ".signals"))) ⟨∅, ∅⟩

/-- The body of the loop over `signal_id_names`. -/
def numberSignal (m : UnorderedMap ByteString UInt16) (entry : ByteString × Nat) :
    Except StdException (UnorderedMap ByteString UInt16) :=
  if 0xFFFF ≤ entry.2 then throw ⟨"signal_id_names exceeds maximum of 65535 entries"⟩
  else pure (m.insert entry.1 (UInt16.ofNat (entry.2 + 1)))

def buildConfig : Except StdException Config := do
  let domains := (getSv Y p "domain_names").foldl (fun ds name => ds ++ [buildDomain Y p name]) []
  let transforms := (getSv Y p "transform_names").foldl
    (fun m sig => m.insert sig (buildTransform Y p sig)) ∅
  let schema := buildSchema Y p
  let signalNameToId ← (getSv Y p "signal_id_names").zipIdx.foldlM numberSignal ∅
  pure
    { canTopic := getS Y p "can_topic" "/vehicle/from_can_bus"
      domains
      aliases := buildAliases Y p
      transforms
      signalToDomain := schema.signalToDomain
      schemaDomainTopics := schema.domainTopics
      signalNameToId }

end Build

/-! ### What `build_config` collects -/

theorem foldlM_numberSignal {entries : List (ByteString × Nat)}
    {m m' : UnorderedMap ByteString UInt16} (h : entries.foldlM numberSignal m = .ok m') :
    m' = entries.foldl (fun m e => m.insert e.1 (UInt16.ofNat (e.2 + 1))) m := by
  induction entries generalizing m with
  | nil => exact (Except.ok.inj h).symm
  | cons e rest ih =>
    rw [List.foldlM_cons] at h
    unfold numberSignal at h
    split at h
    · contradiction
    · exact ih h

variable {Y : YamlCpp} {p : ParamMap} {cfg : Config}

/-- The configuration reads nothing but the values under the keys. -/
theorem buildConfig_congr {p' : ParamMap} (h : ∀ k, p'.lookup k = p.lookup k) :
    buildConfig Y p' = buildConfig Y p := by
  have hText : getS Y p' = getS Y p := by
    funext k default
    rw [getS, getS, h]
  have hTexts : getSv Y p' = getSv Y p := by
    funext k
    rw [getSv, getSv, getVector, getVector, h]
  have hNumbers : getIv Y p' = getIv Y p := by
    funext k
    rw [getIv, getIv, getVector, getVector, h]
  have hDomain : buildDomain Y p' = buildDomain Y p := by
    funext name
    rw [buildDomain, buildDomain, hText, hNumbers]
  have hTransform : buildTransform Y p' = buildTransform Y p := by
    funext sig
    rw [buildTransform, buildTransform, hText]
  have hAliases : buildAliases Y p' = buildAliases Y p := by
    rw [buildAliases, buildAliases, hText, hTexts]
  have hSchema : buildSchema Y p' = buildSchema Y p := by
    rw [buildSchema, buildSchema, hText, hTexts]
  rw [buildConfig, buildConfig, hText, hTexts, hDomain, hTransform, hAliases, hSchema]

theorem buildSchema_eq : buildSchema Y p = SchemaMaps.ofNames (getSv Y p "schema_domain_names")
    (fun name => getS Y p (str "schema." ++ name ++ str ".topic") (str "/vehicle/" ++ name))
    (fun name => getSv Y p (str "schema." ++ name ++ str ".signals")) :=
  rfl

/-- The configuration is determined by the parameters, wherever it is accepted. -/
theorem buildConfig_ok (h : buildConfig Y p = .ok cfg) :
    cfg = { canTopic := getS Y p "can_topic" "/vehicle/from_can_bus"
            domains := (getSv Y p "domain_names").map (buildDomain Y p)
            aliases := buildAliases Y p
            transforms := (getSv Y p "transform_names").foldl
              (fun m sig => m.insert sig (buildTransform Y p sig)) ∅
            signalToDomain := (buildSchema Y p).signalToDomain
            schemaDomainTopics := (buildSchema Y p).domainTopics
            signalNameToId := numberNames (getSv Y p "signal_id_names") } := by
  unfold buildConfig at h
  cases hNumbers : (getSv Y p "signal_id_names").zipIdx.foldlM numberSignal ∅ with
  | error e =>
    rw [hNumbers] at h
    contradiction
  | ok signalNameToId =>
    rw [hNumbers] at h
    rw [← Except.ok.inj h, foldlM_numberSignal hNumbers, foldl_concat_map]
    rfl

end Converter

end VehicleCanDecoder
