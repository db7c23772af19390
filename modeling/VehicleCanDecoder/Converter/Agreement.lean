import VehicleCanDecoder.Converter.RunLaw

/-! The live node and the converter on the same parameters.  Both loaders fold the same functions
over the same lists, so both come to the same path of a decoded signal and to the same topics; a
frame then makes both put out the same groups on the same topics. -/

namespace VehicleCanDecoder

namespace Converter

open Hoare

/-! ### The same parameters -/

/-- A node of the YAML file, and the parameter that it denotes. -/
inductive Denotes (Y : YamlCpp) : YamlNode → ParameterValue → Prop
  | string {s v} (h : Y.asString (.scalar s) = some v) : Denotes Y (.scalar s) (.string v)
  | bool {s b} : Denotes Y (.scalar s) (.bool b)
  | int {s i} : Denotes Y (.scalar s) (.int i)
  | double {s d} : Denotes Y (.scalar s) (.double d)
  | stringArray {l vs} (h : l.map Y.asString = vs.map some) :
    Denotes Y (.sequence l) (.stringArray vs)
  | integerArray {l vs} (h : l.map Y.asInt64 = vs.map some) :
    Denotes Y (.sequence l) (.integerArray vs)

/-- The overrides of a launch and the flattened YAML of the converter say the same. -/
structure SameParameters (Y : YamlCpp) (overrides : Overrides) (params : ParamMap) : Prop where
  absent : ∀ {name}, overrides.lookup name = none → params.lookup name = none
  present : ∀ {name v}, overrides.lookup name = some v →
    ∃ node, params.lookup name = some node ∧ Denotes Y node v

section Getters

variable {Y : YamlCpp} {overrides : Overrides} {params : ParamMap}
  (hSame : SameParameters Y overrides params)

include hSame

/-- A parameter that is missing from both, or is in both and says the same. -/
theorem lookup_cases {name : ByteString} {type : ParameterType}
    (hTyped : overrides.Typed name type) :
    (overrides.lookup name = none ∧ params.lookup name = none) ∨
      ∃ v node, overrides.lookup name = some v ∧ params.lookup name = some node ∧
        Denotes Y node v ∧ v.type = type := by
  cases hOverride : overrides.lookup name with
  | none => exact .inl ⟨rfl, hSame.absent hOverride⟩
  | some v =>
    obtain ⟨node, hNode, hDenotes⟩ := hSame.present hOverride
    exact .inr ⟨v, node, rfl, hNode, hDenotes, hTyped v hOverride⟩

theorem getS_eq_text {name : ByteString} (hTyped : overrides.Typed name .string)
    (default : ByteString) : getS Y params name default = overrides.text name default := by
  unfold getS Overrides.text Overrides.value
  obtain ⟨hOverride, hNode⟩ | ⟨v, node, hOverride, hNode, hDenotes, hType⟩ :=
    lookup_cases hSame hTyped
  · simp [hOverride, hNode]
  · cases hDenotes with
    | string h => simp [hOverride, hNode, h, ParameterValue.asString]
    | _ => contradiction

theorem getSv_eq_strings {name : ByteString} (hTyped : overrides.Typed name .stringArray) :
    getSv Y params name = overrides.strings name := by
  unfold getSv getVector Overrides.strings Overrides.value
  obtain ⟨hOverride, hNode⟩ | ⟨v, node, hOverride, hNode, hDenotes, hType⟩ :=
    lookup_cases hSame hTyped
  · simp [hOverride, hNode]
  · cases hDenotes with
    | stringArray h =>
      simp [hOverride, hNode, filterMap_of_map_eq h, ParameterValue.asStringArray]
    | _ => contradiction

theorem getIv_eq_canIds {name : ByteString}
    (hTyped : overrides.Typed (str "domains." ++ name ++ str ".can_ids") .integerArray) :
    getIv Y params (str "domains." ++ name ++ str ".can_ids") = overrides.canIds name := by
  unfold getIv getVector Overrides.canIds Overrides.value
  obtain ⟨hOverride, hNode⟩ | ⟨v, node, hOverride, hNode, hDenotes, hType⟩ :=
    lookup_cases hSame hTyped
  · simp [hOverride, hNode]
  · cases hDenotes with
    | integerArray h =>
      simp [hOverride, hNode, filterMap_of_map_eq h, ParameterValue.asIntegerArray]
    | _ => contradiction

end Getters

/-! ### The same configuration -/

section Configuration

variable {E : Env} {overrides : Overrides} {order : HashOrder} {l : Loaded}
  (hConfigured : Configured E overrides order l)
  {Y : YamlCpp} {params : ParamMap} (hSame : SameParameters Y overrides params)

include hConfigured hSame

theorem getSv_eq_list {name : ByteString} (hName : name ∈ [str "domain_names", str "alias_names",
    str "transform_names", str "schema_domain_names", str "signal_id_names"]) :
    getSv Y params name = overrides.strings name :=
  getSv_eq_strings hSame (hConfigured.lists name hName)

theorem buildDomains_eq :
    (getSv Y params "domain_names").map (buildDomain Y params) = overrides.domains := by
  rw [getSv_eq_list hConfigured hSame (by simp)]
  refine List.map_congr_left fun name hName => ?_
  have hChecked := hConfigured.domains name hName
  unfold buildDomain Overrides.domain
  rw [getS_eq_text hSame hChecked.topic, getIv_eq_canIds hSame hChecked.canIds]

theorem buildAliases_eq : buildAliases Y params = overrides.aliases := by
  unfold buildAliases Overrides.aliases
  rw [getSv_eq_list hConfigured hSame (by simp)]
  refine List.foldl_ext _ _ _ fun m src hSrc => ?_
  rw [getS_eq_text hSame (hConfigured.aliases src hSrc)]

theorem buildTransforms_eq : (getSv Y params "transform_names").foldl
    (fun m sig => m.insert sig (buildTransform Y params sig)) ∅ = overrides.transforms := by
  unfold Overrides.transforms
  rw [getSv_eq_list hConfigured hSame (by simp)]
  refine List.foldl_ext _ _ _ fun m sig hSig => ?_
  have hChecked := hConfigured.transforms sig hSig
  unfold buildTransform Overrides.transform
  rw [getS_eq_text hSame hChecked.expression, getS_eq_text hSame hChecked.unit]

theorem buildSchema_eq_schema : buildSchema Y params = overrides.schema := by
  unfold buildSchema Overrides.schema SchemaMaps.ofNames
  rw [getSv_eq_list hConfigured hSame (by simp)]
  refine List.foldl_ext _ _ _ fun maps name hName => ?_
  have hChecked := hConfigured.schema name hName
  rw [getS_eq_text hSame hChecked.topic, getSv_eq_strings hSame hChecked.signals]
  rfl

/-- Whatever `build_config` accepts, it reads as the live node does. -/
theorem buildConfig_agrees {cfg : Config} (hConfig : buildConfig Y params = .ok cfg) :
    cfg.domains = overrides.domains ∧ cfg.aliases = overrides.aliases ∧
      cfg.transforms = overrides.transforms ∧
      cfg.signalToDomain = l.params.signalToDomain ∧
      cfg.schemaDomainTopics = l.params.schemaDomainTopics ∧
      cfg.signalNameToId = l.params.signalNameToId := by
  rw [buildConfig_ok hConfig, hConfigured.params]
  refine ⟨buildDomains_eq hConfigured hSame, buildAliases_eq hConfigured hSame,
    buildTransforms_eq hConfigured hSame, ?_, ?_, ?_⟩
  · exact congrArg SchemaMaps.signalToDomain (buildSchema_eq_schema hConfigured hSame)
  · exact congrArg SchemaMaps.domainTopics (buildSchema_eq_schema hConfigured hSame)
  · exact congrArg numberNames (getSv_eq_list hConfigured hSame (by simp))

end Configuration

/-! ### The same topics -/

/-- With one publisher per domain of the schema and no empty topic, the live node has a publisher
for exactly the domains that the converter has a topic for, and on that topic. -/
theorem lookup_setupPublishers {params : NodeParams} {router before : SignalRouter}
    {domains : List DomainConfig} {aliases : UnorderedMap ByteString ByteString}
    {order routerOrder : HashOrder}
    (hRouter : router = (before.configure routerOrder domains aliases).1)
    (hPerDomain : params.schemaPublishPerDomain = true) (hTopics : ∀ d ∈ domains, d.topic ≠ [])
    (domain : ByteString) :
    (VehicleCanNode.setupPublishers order params router
        (domains.map DomainConfig.name)).domains.lookup domain =
      (params.schemaDomainTopics.lookup domain).or
        ((SignalRouter.lastDomainNamed domains domain).map DomainConfig.topic) := by
  have hTopic : router.topicForDomain domain =
      ((SignalRouter.lastDomainNamed domains domain).map DomainConfig.topic).getD "" := by
    rw [SignalRouter.topicForDomain, hRouter, SignalRouter.configure_domainToTopic]
  have hNamed : domain ∈ domains.map DomainConfig.name ↔
      (SignalRouter.lastDomainNamed domains domain).isSome := by
    rw [SignalRouter.lastDomainNamed_isSome, List.mem_map]
  simp only [VehicleCanNode.setupPublishers, hPerDomain, if_true]
  rw [UnorderedMap.lookup_foldl_items, VehicleCanNode.lookup_foldl_addLegacyPub, hTopic,
    AList.lookup_empty]
  simp only [hNamed]
  congr 1
  cases hLast : SignalRouter.lastDomainNamed domains domain with
  | none => simp
  | some d =>
    have hMem : d ∈ domains := (List.mem_filter.mp (List.mem_of_getLast? hLast)).1
    simp [hTopics d hMem]

/-! ### The same path of a signal -/

theorem of_configure (X : Exprtk) {domains : List DomainConfig}
    {aliases : UnorderedMap ByteString ByteString} {order order' : HashOrder}
    {before before' : SignalRouter} {t t' : SignalTransformer} (h : t.installed = t'.installed)
    (signalToDomain : UnorderedMap ByteString ByteString)
    (signalNameToId : UnorderedMap ByteString UInt16) :
    SignalPath.of X (before.configure order domains aliases).1 signalToDomain t signalNameToId =
      SignalPath.of X (before'.configure order' domains aliases).1 signalToDomain t'
        signalNameToId := by
  refine SignalPath.of_congr h ?_ ?_ signalToDomain signalNameToId
  · rw [SignalRouter.configure_aliases, SignalRouter.configure_aliases]
  · intro canId
    rw [SignalRouter.configure_idToDomain, SignalRouter.configure_idToDomain]

/-! ### One frame -/

/-- What a frame comes to, on either side: a topic, and the group of a domain with signals on it. -/
def PutOut (p : SignalPath) (topicFor : ByteString → Option ByteString) (stamp : Stamp)
    (canId : UInt32) (decoded : Option (List RawSignal)) (pair : ByteString × SignalGroup) : Prop :=
  ∃ signals, decoded = some signals ∧ p.inDomain canId signals pair.2.domain ≠ [] ∧
    topicFor pair.2.domain = some pair.1 ∧
    pair.2 = groupFor stamp pair.2.domain (p.inDomain canId signals pair.2.domain)

/-- Both sides decode the same bytes of a frame. -/
theorem payload_eq (f : Frame) : payload f =
    ((VehicleCanNode.toCanFrame f).data, (VehicleCanNode.toCanFrame f).dlc) := by
  unfold payload VehicleCanNode.toCanFrame VehicleCanNode.clampDlc
  by_cases h : f.dlc ≤ 8
  · rw [dif_pos h]
    simp only [if_pos h, Payload.fillFrom_copyN, ite_self]
  · rw [dif_neg h]
    simp [if_neg h]

/-- The live node puts out what the frame comes to. -/
theorem mem_asDomain_iff {E : Env} {start n : VehicleCanNode}
    (hSetup : VehicleCanNode.SameSetup start n) (order : HashOrder) (frame : CanFrame) (stamp : Time)
    (pair : ByteString × SignalGroup) :
    pair ∈ (n.processFrame E order frame stamp).2.filterMap Effect.asDomain ↔
      PutOut (start.path E) start.pubs.domains.lookup (E.rclcpp.stamp stamp) frame.id
        (start.decoder.decode frame.id frame.data frame.dlc) pair := by
  cases hDecode : start.decoder.decode frame.id frame.data frame.dlc with
  | none =>
    rw [VehicleCanNode.processFrame_unknown order n frame stamp (hSetup.decoder ▸ hDecode)]
    simp [PutOut]
  | some decoded =>
    have hEffects := (VehicleCanNode.processFrame_effects (E := E) hSetup order frame stamp
      hDecode).domains pair.2.domain
    have hMem : pair ∈ (n.processFrame E order frame stamp).2.filterMap Effect.asDomain ↔
        pair ∈ ((n.processFrame E order frame stamp).2.filterMap Effect.asDomain).filter
          (·.2.domain = pair.2.domain) := by
      simp [List.mem_filter]
    rw [hMem, hEffects]
    simp only [PutOut, Option.some.injEq, exists_eq_left', VehicleCanNode.groupOf]
    by_cases hSignals : (start.path E).inDomain frame.id decoded pair.2.domain = []
    · simp [hSignals]
    · cases hTopic : start.pubs.domains.lookup pair.2.domain with
      | none => simp
      | some topic =>
        simp only [hSignals, if_false, Option.toList_some, List.map_cons, List.map_nil,
          List.mem_singleton, ne_eq, not_false_eq_true, true_and, Option.some.injEq, groupFor]
        rw [Prod.ext_iff]
        exact and_congr_left fun _ => eq_comm

section Loop

variable {C : ConvertEnv} {cfg : Config} {decoder : DbcDecoder} {router : SignalRouter}
  {t₀ : SignalTransformer}

/-- A conversion up to some point of the loop. -/
def convertUpTo (C : ConvertEnv) (cfg : Config) (decoder : DbcDecoder) (router : SignalRouter)
    (topics : List TopicMetadata) (done : List BagMessage) : Convert PUnit := do
  registerTopics C cfg topics (domainToTopic C.schemaOrder cfg)
  done.forM (convertMessage C cfg decoder router (domainToTopic C.schemaOrder cfg))

theorem convertUpTo_view {bag : InputBag} {done rest : List BagMessage}
    (hBag : bag.messages = done ++ rest) (calls : Nat) :
    Triple (fun s => s = State.opened calls t₀) (convertUpTo C cfg decoder router bag.topics done)
      (fun _ s => ∃ segments, s.view = (View.ready C cfg t₀ bag.topics).afterAll segments)
      (fun _ _ => True) := by
  have hReady : Registered cfg (domainToTopic C.schemaOrder cfg)
      (View.ready C cfg t₀ bag.topics).writer.topics bag.messages := View.ready_registered bag
  have hRegistered : Registered cfg (domainToTopic C.schemaOrder cfg)
      (View.ready C cfg t₀ bag.topics).writer.topics done :=
    ⟨hReady.groups, fun msg hMsg => hReady.messages msg (by simp [hBag, hMsg])⟩
  refine Triple.bind ((registerTopics_opened bag.topics calls).exits fun _ _ _ => trivial)
    fun _ => ?_
  refine (convertLoop_view (View.ready_installed bag.topics) hRegistered).weaken ?_
    fun _ _ _ => trivial
  intro _ s hs
  rcases hs with ⟨segments, -, hView⟩
  exact ⟨segments, hView⟩

/-- The converter puts out what the frame comes to. -/
theorem Segment.putOut {msg : BagMessage} {kind : Kind} {out : List (Origin × BagMessage)}
    (h : Segment C cfg decoder router t₀ (domainToTopic C.schemaOrder cfg) msg kind out)
    (hCan : msg.topicName = cfg.canTopic) {f : Frame}
    (hFrame : C.deserialize msg.serializedData = .ok f) :
    ∃ pairs : List (ByteString × SignalGroup),
      out = pairs.map (fun pair => (.generated, groupMessage f.header.stamp pair.1 pair.2)) ∧
      ∀ pair, pair ∈ pairs ↔ PutOut (path cfg router t₀ C) cfg.topicFor f.header.stamp f.id
        (decoder.decode f.id (payload f).1 (payload f).2) pair := by
  cases h with
  | recorded hTopic => exact absurd hCan hTopic
  | unknown hTopic hFrame' hDecode =>
    obtain rfl := Except.ok.inj (hFrame.symm.trans hFrame')
    exact ⟨[], rfl, fun pair => by simp [PutOut, hDecode]⟩
  | @decoded f' decoded entries hTopic hFrame' hDecode hTransforms hGroups =>
    obtain rfl := Except.ok.inj (hFrame.symm.trans hFrame')
    refine ⟨entries.flatMap fun e => (cfg.topicFor e.1).toList.map (·, e.2), ?_, fun pair => ?_⟩
    · rw [List.map_flatMap]
      refine List.flatMap_congr fun e _ => ?_
      simp [written, lookup_domainToTopic, Function.comp_def]
    · obtain ⟨topic, sg⟩ := pair
      simp only [PutOut, hDecode, Option.some.injEq, exists_eq_left', List.mem_flatMap,
        List.mem_map, Option.mem_toList, Prod.mk.injEq, Prod.exists, hGroups.mem_iff]
      constructor
      · rintro ⟨domain, sg', ⟨hSignals, rfl⟩, topic', hTopic', rfl, rfl⟩
        exact ⟨hSignals, hTopic', rfl⟩
      · rintro ⟨hSignals, hTopic', hGroup⟩
        exact ⟨sg.domain, sg, ⟨hSignals, hGroup⟩, topic, hTopic', rfl, rfl⟩

/-- Where no call and no evaluation fails, no message makes the loop stop. -/
theorem not_fails_of_value (hValue : ∀ expression x, ∃ y, (C.exprtk.value expression x).1 = .ok y)
    {msg : BagMessage} {f : Frame} (hFrame : C.deserialize msg.serializedData = .ok f) :
    ¬ Fails C cfg decoder router t₀ msg := by
  rintro ⟨-, ⟨e, he⟩ | ⟨f', decoded, -, -, raw, -, -, e, he⟩⟩
  · rw [hFrame] at he
    contradiction
  · have hResult := SignalTransformer.transform_result C.exprtk t₀
      ((path cfg router t₀ C).resolve raw.name f'.id).name raw.value
    simp only [path, SignalPath.of] at he hResult
    rw [hResult] at he
    split at he
    · contradiction
    · rename_i expression unit _
      obtain ⟨y, hy⟩ := hValue expression raw.value
      rw [hy] at he
      contradiction

end Loop

/-- A converter that `main` has prepared. -/
structure Prepared (X : Exprtk) (source : DbcSource) (Y : YamlCpp) (params : ParamMap)
    (cfg : Config) (decoder : DbcDecoder) (router : SignalRouter) (t₀ : SignalTransformer) :
    Prop where
  config : buildConfig Y params = .ok cfg
  decoder : DbcDecoder.fresh.load source = some (decoder, true)
  router : ∃ order, router = (SignalRouter.empty.configure order cfg.domains cfg.aliases).1
  transformer : ∃ order, SignalTransformer.configure X order cfg.transforms .empty = .ok ⟨⟩ t₀

section Agreement

variable {E : Env} {overrides : Overrides} {start : VehicleCanNode}
  (hDeclare : E.rclcpp.DeclareDocumented) (hStart : VehicleCanNode.Constructed E overrides start)
  {Y : YamlCpp} {params : ParamMap} (hSame : SameParameters Y overrides params)
  {C : ConvertEnv} (hExprtk : C.exprtk = E.exprtk) {cfg : Config} {decoder : DbcDecoder}
  {router : SignalRouter} {t₀ : SignalTransformer}
  (hPrepared : Prepared E.exprtk (E.openDbc start.params.dbcFile) Y params cfg decoder router t₀)

include hDeclare hStart hSame hPrepared hExprtk in
/-- From the same parameters, both sides come to the same decoder and the same path of a signal, and
with a publisher for each domain of the schema and no empty topic also to the same topics. -/
theorem Prepared.agrees (hPerDomain : start.params.schemaPublishPerDomain = true)
    (hTopics : ∀ d ∈ cfg.domains, d.topic ≠ []) :
    decoder = start.decoder ∧ path cfg router t₀ C = start.path E ∧
      start.pubs.domains.lookup = cfg.topicFor := by
  obtain ⟨order, l, hConfigured, rfl⟩ := hStart.configured hDeclare
  obtain ⟨hDomains, hAliases, hTransforms, hSignals, hSchema, hIds⟩ :=
    buildConfig_agrees hConfigured hSame hPrepared.config
  refine ⟨?_, ?_, ?_⟩
  · obtain ⟨network, hOpen, hLoad⟩ := hConfigured.decoder
    have hSource := hPrepared.decoder
    rw [show (VehicleCanNode.ofLoaded order l _).params.dbcFile = overrides.text "dbc_file" "" from
      congrArg NodeParams.dbcFile hConfigured.params, hOpen, hLoad] at hSource
    exact (congrArg Prod.fst (Option.some.inj hSource)).symm
  · obtain ⟨routerOrder, hRouter⟩ := hPrepared.router
    obtain ⟨transformOrder, hConfigure⟩ := hPrepared.transformer
    have hInstalled : t₀.installed = l.transformer.installed := by
      funext name
      rw [SignalTransformer.configure_ok _ hConfigure, hConfigured.transformer, hTransforms]
    unfold path VehicleCanNode.path
    simp only [VehicleCanNode.ofLoaded]
    rw [hRouter, hConfigured.router, hDomains, hAliases, hSignals, hIds, hExprtk]
    exact of_configure E.exprtk hInstalled _ _
  · funext domain
    have hNames : overrides.strings "domain_names" = overrides.domains.map DomainConfig.name := by
      simp [Overrides.domains, Overrides.domain, Function.comp_def]
    simp only [VehicleCanNode.ofLoaded, Config.topicFor, hSchema, hDomains, hNames] at hPerDomain ⊢
    exact lookup_setupPublishers hConfigured.router hPerDomain (hDomains ▸ hTopics) domain

include hDeclare hStart hSame hPrepared hExprtk in
/-- At any point of their runs, a frame makes the live node publish on the topics of the domains
exactly the groups that it makes the converter write, on the same topics. -/
theorem onCanFrame_agrees (hTime : E.rclcpp.TimeDocumented)
    (hPerDomain : start.params.schemaPublishPerDomain = true)
    (hTopics : ∀ d ∈ cfg.domains, d.topic ≠ [])
    (hValue : ∀ expression x, ∃ y, (E.exprtk.value expression x).1 = .ok y)
    {n : VehicleCanNode} {out : List Effect} (hRuns : VehicleCanNode.Runs E start n out)
    {bag : InputBag} {done rest : List BagMessage} {msg : BagMessage}
    (hBag : bag.messages = done ++ msg :: rest) {calls : Nat} {s : State}
    (hReached : convertUpTo C cfg decoder router bag.topics done (State.opened calls t₀) = .ok ⟨⟩ s)
    (hCan : msg.topicName = cfg.canTopic) {f : Frame}
    (hFrame : C.deserialize msg.serializedData = .ok f) (hValid : f.header.stamp.Valid)
    (order : HashOrder) :
    ∃ n' effects, n.onCanFrame E order f = .ok (n', effects) ∧
      ((∀ k, C.fault k = none) → ∃ s', convertMessage C cfg decoder router
        (domainToTopic C.schemaOrder cfg) msg s = .ok ⟨⟩ s') ∧
      ∀ s', convertMessage C cfg decoder router (domainToTopic C.schemaOrder cfg) msg s = .ok ⟨⟩ s' →
        ∃ pairs : List (ByteString × SignalGroup),
          s'.writer.messages = s.writer.messages ++
            pairs.map (fun pair => (.generated, groupMessage f.header.stamp pair.1 pair.2)) ∧
          ∀ pair, pair ∈ pairs ↔ pair ∈ effects.filterMap Effect.asDomain := by
  obtain ⟨rfl, hPath, hPubs⟩ :=
    hPrepared.agrees hDeclare hStart hSame hExprtk hPerDomain hTopics
  obtain ⟨t, ht⟩ := hTime.exists_time hValid.1
  have hStamp := hTime.roundTrip hValid ht
  -- The state of the loop has the topics registered and the transforms installed.
  obtain ⟨segments, hView⟩ := (convertUpTo_view hBag calls).ok rfl hReached
  obtain ⟨-, hRegistered, hInstalled⟩ := (View.ready C cfg t₀ bag.topics).afterAll_keeps segments
  rw [← hView] at hRegistered hInstalled
  have hReady : Registered cfg (domainToTopic C.schemaOrder cfg) s.view.writer.topics
      bag.messages := hRegistered ▸ View.ready_registered bag
  have hMessage : Triple (fun s' => s'.view = s.view)
      (convertMessage C cfg start.decoder router (domainToTopic C.schemaOrder cfg) msg) _ _ :=
    convertMessage_view (hInstalled.trans (View.ready_installed bag.topics)) hReady
      (by simp [hBag] : msg ∈ bag.messages)
  let after := n.processFrame E order (VehicleCanNode.toCanFrame f) t
  have hOk : n.onCanFrame E order f = .ok (after.1, after.2) := by
    rw [VehicleCanNode.onCanFrame, ht]
    rfl
  refine ⟨after.1, after.2, hOk, fun hFault => ?_, fun s' hRun => ?_⟩
  · cases hRun : convertMessage C cfg start.decoder router (domainToTopic C.schemaOrder cfg) msg s with
    | ok u s' => exact ⟨s', rfl⟩
    | error e s' =>
      obtain ⟨⟨k, hk⟩ | hFails, -⟩ := hMessage.error rfl hRun
      · rw [hFault] at hk
        contradiction
      · exact absurd hFails (not_fails_of_value (hExprtk ▸ hValue) hFrame)
  · obtain ⟨kind, messages, hSegment, hAfter⟩ := hMessage.ok rfl hRun
    obtain ⟨pairs, hMessages, hPairs⟩ := hSegment.putOut hCan hFrame
    refine ⟨pairs, ?_, fun pair => ?_⟩
    · rw [← hMessages]
      exact (congrArg (fun v => v.writer.messages) hAfter).trans (View.after_messages _ kind messages)
    · rw [hPairs, mem_asDomain_iff hRuns.setup, hPath, hPubs, hStamp, payload_eq]
      rfl

end Agreement

theorem sampleParams_same :
    SameParameters sampleYaml VehicleCanNode.sampleOverrides sampleParams where
  absent h := by
    have hKeys : sampleParams.keys = VehicleCanNode.sampleOverrides.keys := rfl
    rw [AList.lookup_eq_none, AList.mem_keys] at h ⊢
    rwa [hKeys]
  present {name v} h := by
    have hMem : Sigma.mk name v ∈ VehicleCanNode.sampleOverrides.entries :=
      AList.mem_lookup_iff.mp h
    change _ ∈ [_, _, _, _, _, _] at hMem
    simp only [List.mem_cons, List.not_mem_nil, or_false, Sigma.mk.injEq] at hMem
    rcases hMem with ⟨rfl, rfl⟩ | ⟨rfl, rfl⟩ | ⟨rfl, rfl⟩ | ⟨rfl, rfl⟩ | ⟨rfl, rfl⟩ | ⟨rfl, rfl⟩
    · exact ⟨_, rfl, .string rfl⟩
    · exact ⟨_, rfl, .stringArray rfl⟩
    · exact ⟨_, rfl, .integerArray rfl⟩
    · exact ⟨_, rfl, .stringArray rfl⟩
    · exact ⟨_, rfl, .stringArray rfl⟩
    · exact ⟨_, rfl, .stringArray rfl⟩

theorem onCanFrame_agrees_sample :
    let E := VehicleCanNode.sampleEnv (VehicleCanNode.sampleNetwork 256)
    let n := VehicleCanNode.sampleNode (VehicleCanNode.sampleNetwork 256)
      VehicleCanNode.sampleOverrides
    ∃ n' effects s s', n.onCanFrame E .listed sampleRosFrame = .ok (n', effects) ∧
      convertMessage sampleConvertEnv sampleConfig sampleDecoder sampleRouter
        (domainToTopic .listed sampleConfig) ⟨"/vehicle/from_can_bus", 2, sampleRecorded⟩ s =
          .ok ⟨⟩ s' := by
  intro E n
  have hStart : VehicleCanNode.Constructed E VehicleCanNode.sampleOverrides n :=
    ⟨.listed, ⟨0, 0⟩, _, rfl⟩
  have hPrepared : Prepared E.exprtk (E.openDbc n.params.dbcFile) sampleYaml sampleParams
      sampleConfig sampleDecoder sampleRouter .empty :=
    ⟨rfl, rfl, ⟨.listed, rfl⟩, ⟨.listed, rfl⟩⟩
  obtain ⟨s, hReached⟩ : ∃ s, convertUpTo sampleConvertEnv sampleConfig sampleDecoder sampleRouter
      sampleBag.topics [⟨"/gps", 1, [7]⟩] (State.opened 0 .empty) = .ok ⟨⟩ s :=
    exists_ok_of_ends (by decide +kernel)
  have hBag : sampleBag.messages =
      [⟨"/gps", 1, [7]⟩] ++ ⟨"/vehicle/from_can_bus", 2, sampleRecorded⟩ :: [] := rfl
  obtain ⟨n', effects, hOk, hWritten, -⟩ := onCanFrame_agrees Rclcpp.documented_declare hStart
    sampleParams_same (C := sampleConvertEnv) rfl hPrepared Rclcpp.documented_time rfl (by decide)
    (fun _ x => ⟨x, rfl⟩) .start hBag hReached rfl (f := sampleRosFrame) rfl
    (by decide) .listed
  obtain ⟨s', hRun⟩ := hWritten fun _ => rfl
  exact ⟨n', effects, s, s', hOk, hRun⟩

end Converter

end VehicleCanDecoder
