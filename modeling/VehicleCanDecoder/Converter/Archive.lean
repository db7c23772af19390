import VehicleCanDecoder.Converter.Replay
import VehicleCanDecoder.Converter.Typing

/-! Reading a bag that the converter has written.  Each generated message gives its group back, and
the schema that a live node publishes from the same parameters names the signals of the group. -/

namespace VehicleCanDecoder

namespace VehicleCanNode

/-- A name that is listed once stands in the schema at its own identifier. -/
theorem resolves_of_nodup {n : VehicleCanNode} {names : List ByteString}
    (hIds : n.params.signalNameToId = numberNames names) (hNodup : names.Nodup)
    (hLength : names.length ≤ 65535) (order : HashOrder) (now : Stamp) {name : ByteString}
    {id : UInt16} (hId : (numberNames names).lookup name = some id) :
    Resolves (n.publishSchema order now) id name := by
  obtain ⟨k, hLast, rfl⟩ := (lookup_numberNames names name id).mp hId
  have hk := (List.getElem?_eq_some_iff.mp hLast.1).1
  have hDistinct : DistinctBefore names k := by
    intro i _ m hm hRepeated
    obtain ⟨j, hj, hAt⟩ := List.getElem_of_mem hRepeated
    rw [List.length_drop] at hj
    have hSame : names[i + 1 + j]? = some m := by
      rw [← List.getElem?_drop, List.getElem?_eq_getElem (by rw [List.length_drop]; omega), hAt]
    have hi := (List.getElem?_eq_some_iff.mp hm).1
    have := (List.getElem?_inj hi hNodup).mp (hm.trans hSame.symm)
    omega
  have hEntry := (numbered_getElem?_iff hLength hLast).mpr hDistinct
  refine ⟨n.schemaEntry (UInt16.ofNat (k + 1), name), ?_, rfl, rfl⟩
  rw [publishSchema_table order n now hIds hLength, List.getElem?_map, ofNat_toNat_le (by omega),
    Nat.add_sub_cancel, hEntry]
  rfl

end VehicleCanNode

namespace Converter

open VehicleCanNode

/-- What a signal of the archive says of a decoded one: its value, and its name by the schema; a
name that has no identifier is not listed. -/
structure Named (schema : VehicleSchema) (names : List ByteString) (r : PassedSignal)
    (sig : Signal) : Prop where
  value : sig.value = r.value.toSingle
  resolves : sig.nameId ≠ 0 → Resolves schema sig.nameId r.res.name
  listed : sig.nameId ≠ 0 ↔ r.res.name ∈ names

/-- What a message of the archive says of a frame. -/
structure Recovers (schema : VehicleSchema) (names : List ByteString) (cfg : Config)
    (p : SignalPath) (f : Frame) (decoded : List RawSignal) (domain : ByteString) (m : BagMessage)
    (sg : SignalGroup) : Prop where
  topic : cfg.topicFor domain = some m.topicName
  bytes : CdrBuffer.Encodable sg → CdrBuffer.decodeSignalGroup m.serializedData = some sg
  header : sg.header = ⟨f.header.stamp, ""⟩
  sameDomain : sg.domain = domain
  signals : List.Forall₂ (Named schema names)
    ((p.assigned f.id decoded).filter (·.res.domain = domain)) sg.signals
  nonempty : sg.signals ≠ []

theorem decodeSignalGroup_serialize {sg : SignalGroup} (h : CdrBuffer.Encodable sg) :
    CdrBuffer.decodeSignalGroup (CdrBuffer.serializeSignalGroup sg []) = some sg := by
  obtain ⟨payload, hBytes, hGroup⟩ := (CdrBuffer.serialize_encodes h).decode
  rw [show CdrBuffer.serializeSignalGroup sg [] = CdrBuffer.kCdrLeHeader ++ payload from hBytes]
  exact hGroup

section Archive

variable {E : Env} {overrides : Overrides} {start : VehicleCanNode} {Y : YamlCpp}
  {params : ParamMap} {cfg : Config} {schema : VehicleSchema} {callbacks : List Callback}
  {C : ConvertEnv} {decoder : DbcDecoder} {router : SignalRouter} {t₀ : SignalTransformer}

/-- The identifiers of the converter are those of the schemas of a node. -/
theorem named_of_pass (hDeclare : E.rclcpp.DeclareDocumented)
    (hStart : Constructed E overrides start) (hSame : SameParameters Y overrides params)
    (hConfig : buildConfig Y params = .ok cfg)
    (hNodup : (overrides.strings "signal_id_names").Nodup)
    (hSchema : schema ∈ (start.observed E callbacks).filterMap Effect.asSchema) {r : PassedSignal}
    {raw : RawSignal} {canId : UInt32} (hPass : (path cfg router t₀ C).pass canId raw = some r) :
    Named schema (overrides.strings "signal_id_names") r r.signal := by
  obtain ⟨order, l, hConfigured, rfl⟩ := hStart.configured hDeclare
  obtain ⟨-, -, -, -, -, hIds⟩ := buildConfig_agrees hConfigured hSame hConfig
  obtain ⟨n, schemaOrder, now, hSetup, rfl⟩ := observed_schema callbacks hSchema
  have hLength := hConfigured.signalIdNames
  have hNames : l.params.signalNameToId = numberNames (overrides.strings "signal_id_names") := by
    rw [hConfigured.params]
    rfl
  have hNode : n.params.signalNameToId = numberNames (overrides.strings "signal_id_names") :=
    (congrArg NodeParams.signalNameToId hSetup.params).trans hNames
  generalize overrides.strings "signal_id_names" = names at hNodup hLength hNames hNode ⊢
  have hSignal := (SignalPath.pass_signal _ canId hPass).2.2
  have hNameId : r.signal.nameId = ((numberNames names).lookup r.res.name).getD 0 := by
    rw [hSignal, ← hNames, ← hIds]
    rfl
  have hValue : r.signal.value = r.value.toSingle := by rw [hSignal]
  cases hLookup : (numberNames names).lookup r.res.name with
  | none =>
    rw [hLookup, Option.getD_none] at hNameId
    refine ⟨hValue, fun h => absurd hNameId h, iff_of_false (not_not.mpr hNameId) fun hMem => ?_⟩
    obtain ⟨i, hLast⟩ := exists_lastAt hMem
    rw [(lookup_numberNames names _ _).mpr ⟨i, hLast, rfl⟩] at hLookup
    contradiction
  | some id =>
    rw [hLookup, Option.getD_some] at hNameId
    have hPositive := (numberNames_positive_distinct hLength).1 _ _ hLookup
    obtain ⟨i, hLast, -⟩ := (lookup_numberNames names _ id).mp hLookup
    rw [← hNameId] at hPositive hLookup
    exact ⟨hValue, fun _ => resolves_of_nodup hNode hNodup hLength schemaOrder now hLookup,
      iff_of_true hPositive hLast.mem⟩

/-- What a generated message of a segment is the group of. -/
theorem Segment.generated {topicOf : UnorderedMap ByteString ByteString} {msg m : BagMessage}
    {kind : Kind} {out : List (Origin × BagMessage)}
    (h : Segment C cfg decoder router t₀ topicOf msg kind out) (hm : (.generated, m) ∈ out) :
    ∃ f decoded domain topic, msg.topicName = cfg.canTopic ∧
      C.deserialize msg.serializedData = .ok f ∧
      decoder.decode f.id (payload f).1 (payload f).2 = some decoded ∧
      topicOf.lookup domain = some topic ∧
      (path cfg router t₀ C).inDomain f.id decoded domain ≠ [] ∧
      m = groupMessage f.header.stamp topic
        (groupFor f.header.stamp domain ((path cfg router t₀ C).inDomain f.id decoded domain)) := by
  cases h with
  | recorded =>
    have := List.mem_singleton.mp hm
    contradiction
  | unknown => contradiction
  | @decoded f decoded entries hTopic hFrame hDecode _ hGroups =>
    obtain ⟨⟨domain, sg⟩, he, hm⟩ := List.mem_flatMap.mp hm
    obtain ⟨topic, hFor, hm⟩ := List.mem_map.mp hm
    obtain ⟨-, rfl⟩ := Prod.mk.inj hm
    obtain ⟨hNe, rfl⟩ := (hGroups.mem_iff domain sg).mp he
    exact ⟨f, decoded, domain, topic, hTopic, hFrame, hDecode, Option.mem_toList.mp hFor, hNe, rfl⟩

/-- A converted bag can be read back with the schema of a live node alone, if no name is listed
twice: each generated message gives the group of one domain of one recorded frame, whose signals are
the decoded ones in order, each with its value, and with its name unless that is not listed. -/
theorem archive_reads (hDeclare : E.rclcpp.DeclareDocumented)
    (hStart : Constructed E overrides start) (hSame : SameParameters Y overrides params)
    (hConfig : buildConfig Y params = .ok cfg)
    (hNodup : (overrides.strings "signal_id_names").Nodup)
    (hSchema : schema ∈ (start.observed E callbacks).filterMap Effect.asSchema) {bag : InputBag}
    {calls : Nat} {s : State}
    (hRun : convertBag C cfg decoder router bag (State.opened calls t₀) = .ok ⟨⟩ s) :
    ∀ m, (.generated, m) ∈ s.writer.messages →
      ∃ msg ∈ bag.messages, ∃ f decoded domain sg, msg.topicName = cfg.canTopic ∧
        C.deserialize msg.serializedData = .ok f ∧
        decoder.decode f.id (payload f).1 (payload f).2 = some decoded ∧
        Recovers schema (overrides.strings "signal_id_names") cfg (path cfg router t₀ C) f decoded
          domain m sg := by
  intro m hm
  obtain ⟨segments, hSegments, hView⟩ := (convertBag_view bag calls).ok rfl hRun
  obtain ⟨hMessages, -, -⟩ := (View.ready C cfg t₀ bag.topics).afterAll_keeps segments
  rw [← hView, View.ready_rest] at hMessages
  have hAll : s.writer.messages = segments.flatMap Prod.snd := hMessages
  rw [hAll] at hm
  obtain ⟨seg, hSeg, hm⟩ := List.mem_flatMap.mp hm
  obtain ⟨msg, hMsg, hSegment⟩ := (List.forall₂_exists hSegments).2 seg hSeg
  obtain ⟨f, decoded, domain, topic, hTopic, hFrame, hDecode, hFor, hNe, rfl⟩ :=
    hSegment.generated hm
  rw [lookup_domainToTopic] at hFor
  refine ⟨msg, hMsg, f, decoded, domain, _, hTopic, hFrame, hDecode, hFor,
    decodeSignalGroup_serialize, rfl, rfl, ?_, hNe⟩
  show List.Forall₂ _ _ (List.map _ _)
  rw [List.forall₂_map_right_iff, List.forall₂_same]
  intro r hr
  obtain ⟨raw, -, hPass⟩ := List.mem_filterMap.mp (List.mem_filter.mp (List.mem_filter.mp hr).1).1
  exact named_of_pass hDeclare hStart hSame hConfig hNodup hSchema hPass

end Archive

/-- The sample recording, read with the schema of a node that the sample parameters have
launched. -/
theorem archive_reads_sample :
    let n := sampleNode (sampleNetwork 256) sampleOverrides
    ∃ s, convertBag sampleConvertEnv sampleConfig sampleDecoder sampleRouter sampleBag
        (State.opened 0 .empty) = .ok ⟨⟩ s ∧
      ∀ m, (.generated, m) ∈ s.writer.messages → ∃ f decoded domain sg,
        Recovers (n.publishSchema .listed ⟨4, 0⟩) [str "pressed"] sampleConfig
          (path sampleConfig sampleRouter .empty sampleConvertEnv) f decoded domain m sg := by
  intro n
  have hStart : Constructed (sampleEnv (sampleNetwork 256)) sampleOverrides n :=
    ⟨.listed, ⟨0, 0⟩, _, rfl⟩
  have hSchema : n.publishSchema .listed ⟨4, 0⟩ ∈ (n.observed (sampleEnv (sampleNetwork 256))
      [.schemaTimer .listed ⟨4, 0⟩]).filterMap Effect.asSchema := .head _
  obtain ⟨s, hRun⟩ : ∃ s, convertBag sampleConvertEnv sampleConfig sampleDecoder sampleRouter
      sampleBag (State.opened 0 .empty) = .ok ⟨⟩ s := exists_ok_of_ends (by decide +kernel)
  refine ⟨s, hRun, fun m hm => ?_⟩
  obtain ⟨msg, -, f, decoded, domain, sg, -, -, -, hRecovers⟩ :=
    archive_reads Rclcpp.documented_declare hStart sampleParams_same rfl
      (by decide : (sampleOverrides.strings "signal_id_names").Nodup) hSchema hRun m hm
  exact ⟨f, decoded, domain, sg, hRecovers⟩

end Converter

end VehicleCanDecoder
