import VehicleCanDecoder.Converter.Segments
import VehicleCanDecoder.Frames
import VehicleCanDecoder.Lib.Lists

/-! A whole conversion: what the topics are registered as, and that every domain that a signal can
be assigned to has a topic.  A conversion that ends without an error writes, for each message of the
input in turn, what that message alone comes to. -/

namespace VehicleCanDecoder

namespace Converter

open Hoare

/-! ### The topics of the domains -/

/-- The topic of a domain: that of the schema, else that of the last domain of the name. -/
def Config.topicFor (cfg : Config) (domain : ByteString) : Option ByteString :=
  (cfg.schemaDomainTopics.lookup domain).or
    ((SignalRouter.lastDomainNamed cfg.domains domain).map DomainConfig.topic)

theorem lookup_domainToTopic (order : HashOrder) (cfg : Config) (domain : ByteString) :
    (domainToTopic order cfg).lookup domain = cfg.topicFor domain := by
  unfold domainToTopic Config.topicFor SignalRouter.lastDomainNamed
  rw [UnorderedMap.lookup_foldl_items, UnorderedMap.lookup_foldl_insert, AList.lookup_empty,
    Option.or_none]

/-- A domain that a signal is assigned to has a topic, in both modes. -/
theorem topicFor_isSome {Y : YamlCpp} {p : ParamMap} {cfg : Config}
    (hConfig : buildConfig Y p = .ok cfg) {order : HashOrder} {router before : SignalRouter}
    (hRouter : router = (before.configure order cfg.domains cfg.aliases).1)
    {resolved : ByteString} {canId : UInt32} {domain : ByteString}
    (hDomain : resolveDomain resolved canId router cfg.signalToDomain = domain)
    (hAssigned : domain ≠ SignalRouter.kUnassignedDomain) : (cfg.topicFor domain).isSome := by
  have hTopics : cfg.schemaDomainTopics = (buildSchema Y p).domainTopics := by
    rw [buildConfig_ok hConfig]
  have hSignals : cfg.signalToDomain = (buildSchema Y p).signalToDomain := by
    rw [buildConfig_ok hConfig]
  unfold Config.topicFor
  unfold resolveDomain at hDomain
  split at hDomain
  · -- A schema: the domain lists the signal, so it is a domain of the schema.
    cases hLookup : cfg.signalToDomain.lookup resolved with
    | none => exact absurd hDomain.symm (by simpa [hLookup] using hAssigned)
    | some listing =>
      obtain rfl : listing = domain := by simpa [hLookup] using hDomain
      rw [hSignals, buildSchema_eq, SchemaMaps.ofNames_signalToDomain] at hLookup
      have hMem := (List.mem_filter.mp (List.mem_of_getLast? hLookup)).1
      rw [hTopics, buildSchema_eq, SchemaMaps.ofNames_domainTopics, if_pos hMem]
      rfl
  · -- No schema: the domain lists the identifier, so it is one of the domains.
    cases hLookup : router.idToDomain.lookup canId with
    | none => exact absurd hDomain.symm (by simpa [SignalRouter.domainForId, hLookup] using hAssigned)
    | some listing =>
      obtain rfl : listing = domain := by
        simpa [SignalRouter.domainForId, hLookup] using hDomain
      rw [hRouter, SignalRouter.configure_idToDomain, Option.map_eq_some_iff] at hLookup
      obtain ⟨dc, hLast, hName⟩ := hLookup
      have hNamed : (SignalRouter.lastDomainNamed cfg.domains listing).isSome :=
        (SignalRouter.lastDomainNamed_isSome cfg.domains listing).mpr
          ⟨dc, (SignalRouter.lastDomainWith_mem cfg.domains hLast).1, hName⟩
      simp [hNamed]

/-! ### The registration of topics -/

variable {C : ConvertEnv} {cfg : Config}

/-- The topics that are registered, in order. -/
def registrations (C : ConvertEnv) (cfg : Config) (topics : List TopicMetadata) :
    List TopicMetadata :=
  topics.filter (·.name ≠ cfg.canTopic) ++
    ((domainToTopic C.schemaOrder cfg).items C.topicsOrder).map fun e => signalGroupTopic e.2

/-- The view of a writer with topics registered, in order, and nothing written. -/
def View.register (v : View) (topic : TopicMetadata) : View :=
  { v with writer := { v.writer with
      topics := (v.writer.topics.emplace topic.name topic).1 } }

theorem View.foldl_register (v : View) (topics : List TopicMetadata) :
    topics.foldl View.register v = { v with writer := { v.writer with
      topics := topics.foldl (fun m t => (m.emplace t.name t).1) v.writer.topics } } := by
  induction topics generalizing v with
  | nil => rfl
  | cons topic rest ih => rw [List.foldl_cons, ih]; rfl

theorem createTopic_view (topic : TopicMetadata) (v : View) :
    Triple (fun s => s.view = v) (createTopic C topic) (fun _ s => s.view = v.register topic)
      (fun _ s => C.Faulty ∧ s.view = v) := by
  refine Triple.bind (callOut_view' .thrown v) fun _ => Triple.modify ?_
  rintro s rfl
  rfl

theorem registerTopics_view (topics : List TopicMetadata) (v : View) :
    Triple (fun s => s.view = v)
      (registerTopics C cfg topics (domainToTopic C.schemaOrder cfg))
      (fun _ s => s.view = (registrations C cfg topics).foldl View.register v)
      (fun _ s => C.Faulty ∧ s.view.writer.messages = v.writer.messages) := by
  let skipCan : TopicMetadata → Bool := fun topic => decide (topic.name ≠ cfg.canTopic)
  let v₁ := (topics.filter skipCan).foldl View.register v
  have hMessages : ∀ (l : List TopicMetadata) (v : View),
      (l.foldl View.register v).writer.messages = v.writer.messages := by
    intro l v
    rw [View.foldl_register]
  refine Triple.bind ((callOut_view' .thrown v).exits
    fun _ _ he => ⟨he.1, by rw [he.2]⟩) fun _ => ?_
  refine Triple.bind (Q := fun _ s => s.view = v₁) ?_ fun _ => ?_
  · -- The topics of the input.
    refine (Triple.forM (fun done (s : State) =>
      s.view = (done.filter skipCan).foldl View.register v) topics
      fun done topic rest _ => ?_).pre fun s hs => hs
    rw [List.filter_append, List.foldl_append]
    by_cases hCan : topic.name = cfg.canTopic
    · rw [if_pos hCan]
      exact Triple.pure fun s hs => by simpa [skipCan, hCan] using hs
    · rw [if_neg hCan]
      refine (createTopic_view topic _).weaken (fun _ s hs => ?_) ?_
      · simpa [skipCan, hCan] using hs
      · intro _ s hs
        rcases hs with ⟨hFault, hView⟩
        exact ⟨hFault, by rw [hView, hMessages]⟩
  · -- The topics of the domains.
    unfold registrations
    rw [List.foldl_append, List.foldl_map]
    refine (Triple.forM (fun done (s : State) => s.view =
      done.foldl (fun v (e : ByteString × ByteString) => v.register (signalGroupTopic e.2)) v₁) _
      fun done e rest _ => ?_).pre fun s hs => hs
    refine (createTopic_view (signalGroupTopic e.2) _).weaken (fun _ s hs => ?_) ?_
    · rw [hs, List.foldl_concat]
    · intro _ s hs
      rcases hs with ⟨hFault, hView⟩
      refine ⟨hFault, ?_⟩
      rw [hView, ← List.foldl_map (f := fun e : ByteString × ByteString => signalGroupTopic e.2)
        (g := View.register), hMessages, hMessages]

/-- The type that stands for a name is that of its first registration. -/
def registeredAs (C : ConvertEnv) (cfg : Config) (topics : List TopicMetadata)
    (name : ByteString) : Option TopicMetadata :=
  (registrations C cfg topics).find? (·.name = name)

theorem registeredAs_isSome {topics : List TopicMetadata} {name : ByteString} :
    (registeredAs C cfg topics name).isSome ↔
      (name ≠ cfg.canTopic ∧ name ∈ topics.map TopicMetadata.name) ∨
        ∃ domain, cfg.topicFor domain = some name := by
  have hGenerated : (∃ e ∈ (domainToTopic C.schemaOrder cfg).items C.topicsOrder, e.2 = name) ↔
      ∃ domain, cfg.topicFor domain = some name := by
    simp only [Prod.exists, UnorderedMap.mem_items, lookup_domainToTopic]
    constructor
    · rintro ⟨domain, topic, h, rfl⟩
      exact ⟨domain, h⟩
    · rintro ⟨domain, h⟩
      exact ⟨domain, name, h, rfl⟩
  unfold registeredAs registrations
  rw [← hGenerated, List.find?_isSome]
  simp only [List.mem_append, List.mem_filter, List.mem_map, decide_eq_true_eq]
  constructor
  · rintro ⟨topic, ⟨hTopic, hCan⟩ | ⟨e, he, rfl⟩, rfl⟩
    · exact .inl ⟨hCan, topic, hTopic, rfl⟩
    · exact .inr ⟨e, he, rfl⟩
  · rintro (⟨hCan, topic, hTopic, rfl⟩ | ⟨e, he, rfl⟩)
    · exact ⟨topic, .inl ⟨hTopic, hCan⟩, rfl⟩
    · exact ⟨_, .inr ⟨e, he, rfl⟩, rfl⟩

/-! ### A whole conversion -/

section Conversion

variable {decoder : DbcDecoder} {router : SignalRouter} {t₀ : SignalTransformer}

/-- The view of a writer that has registered all topics. -/
def View.ready (C : ConvertEnv) (cfg : Config) (t₀ : SignalTransformer)
    (topics : List TopicMetadata) : View :=
  (registrations C cfg topics).foldl View.register (State.opened 0 t₀).view

theorem View.ready_topics (topics : List TopicMetadata) (name : ByteString) :
    (View.ready C cfg t₀ topics).writer.topics.lookup name = registeredAs C cfg topics name := by
  unfold ready registeredAs
  rw [View.foldl_register]
  show AList.lookup name ((registrations C cfg topics).foldl
    (fun m t => (UnorderedMap.emplace m t.name t).1) ∅) = _
  rw [UnorderedMap.lookup_foldl_emplace, AList.lookup_empty, Option.none_or, Option.map_id']

/-- Nothing but topics is registered before the loop. -/
theorem View.ready_rest (topics : List TopicMetadata) :
    View.ready C cfg t₀ topics = { (State.opened 0 t₀).view with
      writer := ⟨(View.ready C cfg t₀ topics).writer.topics, []⟩ } := by
  unfold ready
  rw [View.foldl_register]
  rfl

theorem View.ready_installed (topics : List TopicMetadata) :
    (View.ready C cfg t₀ topics).installed = t₀.installed := by
  rw [View.ready_rest]
  rfl

theorem View.ready_registered (bag : InputBag) :
    Registered cfg (domainToTopic C.schemaOrder cfg)
      (View.ready C cfg t₀ bag.topics).writer.topics bag.messages where
  groups domain topic h := by
    rw [lookup_domainToTopic] at h
    rw [View.ready_topics, ← Option.isSome_iff_ne_none, registeredAs_isSome]
    exact .inr ⟨domain, h⟩
  messages msg hMsg hCan := by
    rw [View.ready_topics, ← Option.isSome_iff_ne_none, registeredAs_isSome]
    exact .inl ⟨hCan, bag.messages_topics msg hMsg⟩

theorem registerTopics_opened (topics : List TopicMetadata) (calls : Nat) :
    Triple (fun s => s = State.opened calls t₀)
      (registerTopics C cfg topics (domainToTopic C.schemaOrder cfg))
      (fun _ s => s.view = View.ready C cfg t₀ topics)
      (fun _ s => C.Faulty ∧ s.view.writer.messages = []) := by
  refine (registerTopics_view topics (State.opened 0 t₀).view).pre ?_
  rintro s rfl
  rfl

theorem convertBag_view (bag : InputBag) (calls : Nat) :
    Triple (fun s => s = State.opened calls t₀) (convertBag C cfg decoder router bag)
      (fun _ s => ∃ segments, List.Forall₂ (fun msg seg =>
          Segment C cfg decoder router t₀ (domainToTopic C.schemaOrder cfg) msg seg.1 seg.2)
          bag.messages segments ∧
        s.view = (View.ready C cfg t₀ bag.topics).afterAll segments)
      (fun _ s => (C.Faulty ∧ s.view.writer.messages = []) ∨
        Stopped C cfg decoder router t₀ (domainToTopic C.schemaOrder cfg)
          (View.ready C cfg t₀ bag.topics) bag.messages s) := by
  refine Triple.bind ((registerTopics_opened bag.topics calls).exits fun _ _ he => .inl he)
    fun _ => ?_
  exact (convertMessages_view (View.ready_installed bag.topics)
    (View.ready_registered bag)).exits fun _ _ hs => .inr hs

/-- Where no call fails and no message does, a conversion comes to its end. -/
theorem convertBag_ends (bag : InputBag) (calls : Nat)
    (hFault : ∀ k, C.fault k = none)
    (hFails : ∀ msg ∈ bag.messages, ¬ Fails C cfg decoder router t₀ msg) :
    ∃ s, convertBag C cfg decoder router bag (State.opened calls t₀) = .ok ⟨⟩ s := by
  have hFaulty : ¬ C.Faulty := fun ⟨k, hk⟩ => by simp [hFault] at hk
  cases hRun : convertBag C cfg decoder router bag (State.opened calls t₀) with
  | ok u s => exact ⟨s, rfl⟩
  | error e s =>
    rcases (convertBag_view bag calls).error rfl hRun with ⟨hHere, -⟩ | ⟨-, hProgress⟩
    · exact absurd hHere hFaulty
    · obtain ⟨done, rest, segments, out, hSplit, -, -, -, hHere | ⟨msg, hMsg, hHere⟩⟩ := hProgress
      · exact absurd hHere hFaulty
      · have hMem : msg ∈ bag.messages := by
          rw [hSplit]
          exact List.mem_append_right _ (List.mem_of_mem_head? hMsg)
        exact absurd hHere (hFails msg hMem)

/-- No message of a conversion that has come to its end fails. -/
theorem convertBag_not_fails {bag : InputBag} {calls : Nat} {s : State}
    (hRun : convertBag C cfg decoder router bag (State.opened calls t₀) = .ok ⟨⟩ s) :
    ∀ msg ∈ bag.messages, ¬ Fails C cfg decoder router t₀ msg := by
  obtain ⟨segments, hSegments, -⟩ := (convertBag_view bag calls).ok rfl hRun
  intro msg hMsg
  obtain ⟨seg, -, hSegment⟩ := (List.forall₂_exists hSegments).1 msg hMsg
  exact hSegment.not_fails

/-- The counters after a run of segments: each message counts once. -/
theorem View.afterAll_counters (v : View) (segments : List (Kind × List (Origin × BagMessage))) :
    (v.afterAll segments).framesIn + v.framesDecoded + v.framesUnknown =
        v.framesIn + (v.afterAll segments).framesDecoded + (v.afterAll segments).framesUnknown ∧
      (v.afterAll segments).framesIn + (v.afterAll segments).passthrough =
        v.framesIn + v.passthrough + segments.length := by
  induction segments using List.reverseRecOn with
  | nil => simp [afterAll]
  | append_singleton rest seg ih =>
    obtain ⟨kind, out⟩ := seg
    rw [View.afterAll_concat, List.length_append, List.length_singleton]
    cases kind <;> simp only [View.after, View.wrote] <;> omega

end Conversion

/-! ### What each message comes to -/

/-- The time stamp of a group is exact, and no step of its computation leaves the range. -/
theorem timeStamp_exact (stamp : Stamp) :
    (stamp.sec.toInt64 * 1000000000).toInt = stamp.sec.toInt * 10 ^ 9 ∧
      (timeStamp stamp).toInt = stamp.sec.toInt * 10 ^ 9 + stamp.nanosec.toNat := by
  have hLow := stamp.sec.le_toInt
  have hHigh := stamp.sec.toInt_lt
  have hNano := stamp.nanosec.toNat_lt
  have hMul : (stamp.sec.toInt64 * 1000000000).toInt = stamp.sec.toInt * 10 ^ 9 := by
    rw [Int64.toInt_mul, Int32.toInt_toInt64, show (1000000000 : Int64).toInt = 10 ^ 9 from rfl]
    exact Int.bmod_eq_of_le (by omega) (by omega)
  have hNanosec : stamp.nanosec.toUInt64.toInt64.toInt = stamp.nanosec.toNat := by
    have hBits : stamp.nanosec.toUInt64.toInt64.toInt = stamp.nanosec.toUInt64.toBitVec.toInt := rfl
    rw [hBits, BitVec.toInt_eq_toNat_bmod, UInt64.toNat_toBitVec, UInt32.toNat_toUInt64]
    exact Int.bmod_eq_of_le (by omega) (by omega)
  refine ⟨hMul, ?_⟩
  unfold timeStamp
  rw [Int64.toInt_add, hMul, hNanosec]
  exact Int.bmod_eq_of_le (by omega) (by omega)

/-- The message of a domain, for a decoded frame. -/
structure IsGroupMessage (cfg : Config) (p : SignalPath) (f : Frame) (decoded : List RawSignal)
    (domain : ByteString) (m : BagMessage) : Prop where
  topic : cfg.topicFor domain = some m.topicName
  timeStamp : m.timeStamp.toInt = f.header.stamp.sec.toInt * 10 ^ 9 + f.header.stamp.nanosec.toNat
  data : m.serializedData = CdrBuffer.serializeSignalGroup
    (groupFor f.header.stamp domain (p.inDomain f.id decoded domain)) []

/-- What the converter writes for one message of the input. -/
inductive Converts (C : ConvertEnv) (cfg : Config) (decoder : DbcDecoder) (p : SignalPath)
    (msg : BagMessage) : List BagMessage → Prop
  | recorded (hTopic : msg.topicName ≠ cfg.canTopic) : Converts C cfg decoder p msg [msg]
  | unknown {f} (hTopic : msg.topicName = cfg.canTopic)
      (hFrame : C.deserialize msg.serializedData = .ok f)
      (hDecode : decoder.decode f.id (payload f).1 (payload f).2 = none) :
    Converts C cfg decoder p msg []
  | decoded {f decoded domains out} (hTopic : msg.topicName = cfg.canTopic)
      (hFrame : C.deserialize msg.serializedData = .ok f)
      (hDecode : decoder.decode f.id (payload f).1 (payload f).2 = some decoded)
      (hTransforms : ∀ raw ∈ decoded, ¬ p.Throws f.id raw)
      (hNodup : domains.Nodup)
      (hDomains : ∀ domain, domain ∈ domains ↔ ∃ raw ∈ decoded,
        (p.resolve raw.name f.id).isAssigned ∧ (p.resolve raw.name f.id).domain = domain)
      (hOut : List.Forall₂ (IsGroupMessage cfg p f decoded) domains out) :
    Converts C cfg decoder p msg out

/-- Where no transform throws, the domains with signals are those that a signal is assigned to. -/
theorem inDomain_ne_nil {p : SignalPath} {f : Frame} {decoded : List RawSignal}
    (hTransforms : ∀ raw ∈ decoded, ¬ p.Throws f.id raw) (domain : ByteString) :
    p.inDomain f.id decoded domain ≠ [] ↔ ∃ raw ∈ decoded,
      (p.resolve raw.name f.id).isAssigned ∧ (p.resolve raw.name f.id).domain = domain := by
  unfold SignalPath.inDomain
  rw [ne_eq, List.map_eq_nil_iff, List.filter_eq_nil_iff, p.assigned_eq]
  simp only [List.mem_filterMap, decide_eq_true_eq, not_forall, not_not, exists_prop]
  constructor
  · rintro ⟨r, ⟨raw, hRaw, hAssign⟩, rfl⟩
    obtain ⟨hPass, hAssigned⟩ := Option.filter_eq_some_iff.mp hAssign
    obtain ⟨hRes, -, -⟩ := p.pass_signal f.id hPass
    exact ⟨raw, hRaw, hRes ▸ hAssigned, by rw [hRes]⟩
  · rintro ⟨raw, hRaw, hAssigned, rfl⟩
    cases hTransform : p.transform (p.resolve raw.name f.id).name raw.value with
    | error e => exact absurd ⟨hAssigned, e, hTransform⟩ (hTransforms raw hRaw)
    | ok value =>
      have hPass : p.pass f.id raw = some ⟨p.resolve raw.name f.id, value,
          ⟨p.nameId (p.resolve raw.name f.id).name, value.toSingle⟩⟩ := by
        simp [SignalPath.pass, hTransform]
      exact ⟨_, ⟨raw, hRaw, (p.assign_of_assigned f.id hAssigned).trans hPass⟩, rfl⟩

/-- The domains that have a group. -/
theorem Groups.mem_domains {p : SignalPath} {f : Frame} {decoded : List RawSignal}
    {entries : List (ByteString × SignalGroup)} (hGroups : Groups p f decoded entries)
    (hTransforms : ∀ raw ∈ decoded, ¬ p.Throws f.id raw) (domain : ByteString) :
    domain ∈ entries.map Prod.fst ↔ ∃ raw ∈ decoded,
      (p.resolve raw.name f.id).isAssigned ∧ (p.resolve raw.name f.id).domain = domain := by
  rw [← inDomain_ne_nil hTransforms]
  simp [hGroups.mem_iff]

/-- No group of a frame lacks a topic, so each domain has its message. -/
theorem written_groups {p : SignalPath} {f : Frame} {decoded : List RawSignal}
    {entries : List (ByteString × SignalGroup)} (hGroups : Groups p f decoded entries)
    (hTopics : ∀ e ∈ entries, (cfg.topicFor e.1).isSome) :
    List.Forall₂ (IsGroupMessage cfg p f decoded) (entries.map Prod.fst)
      ((entries.flatMap (written (domainToTopic C.schemaOrder cfg) f.header.stamp)).map
        Prod.snd) := by
  have hMessages : entries.flatMap (written (domainToTopic C.schemaOrder cfg) f.header.stamp) =
      entries.map fun e => (.generated,
        groupMessage f.header.stamp ((cfg.topicFor e.1).getD []) e.2) := by
    rw [List.map_eq_flatMap]
    refine List.flatMap_congr fun e he => ?_
    obtain ⟨topic, hTopic⟩ := Option.isSome_iff_exists.mp (hTopics e he)
    simp [written, lookup_domainToTopic, hTopic]
  rw [hMessages, List.map_map, List.forall₂_map_left_iff, List.forall₂_map_right_iff,
    List.forall₂_same]
  rintro ⟨domain, sg⟩ he
  obtain ⟨-, rfl⟩ := (hGroups.mem_iff domain sg).mp he
  obtain ⟨topic, hTopic⟩ := Option.isSome_iff_exists.mp (hTopics _ he)
  refine ⟨?_, (timeStamp_exact _).2, rfl⟩
  simp only at hTopic
  simp [groupMessage, hTopic]

/-- A segment of the run is what its message comes to. -/
theorem Segment.converts {Y : YamlCpp} {params : ParamMap} (hConfig : buildConfig Y params = .ok cfg)
    {order : HashOrder} {router before : SignalRouter}
    (hRouter : router = (before.configure order cfg.domains cfg.aliases).1)
    {decoder : DbcDecoder} {t₀ : SignalTransformer} {msg : BagMessage} {kind : Kind}
    {out : List (Origin × BagMessage)}
    (h : Segment C cfg decoder router t₀ (domainToTopic C.schemaOrder cfg) msg kind out) :
    Converts C cfg decoder (path cfg router t₀ C) msg (out.map Prod.snd) := by
  cases h with
  | recorded hTopic => exact .recorded hTopic
  | unknown hTopic hFrame hDecode => exact .unknown hTopic hFrame hDecode
  | @decoded f decoded entries hTopic hFrame hDecode hTransforms hGroups =>
    have hDomains := hGroups.mem_domains hTransforms
    refine .decoded hTopic hFrame hDecode hTransforms hGroups.nodup hDomains
      (written_groups hGroups fun e he => ?_)
    obtain ⟨raw, -, hAssigned, hDomain⟩ := (hDomains e.1).mp (List.mem_map_of_mem he)
    exact topicFor_isSome hConfig hRouter hDomain (hDomain ▸ of_decide_eq_true hAssigned)

/-- A conversion that ends without an error has written, in the order of the input, what each of its
messages comes to, and counted each once. -/
theorem convertBag_law {Y : YamlCpp} {params : ParamMap} (hConfig : buildConfig Y params = .ok cfg)
    {order : HashOrder} {router before : SignalRouter}
    (hRouter : router = (before.configure order cfg.domains cfg.aliases).1)
    {decoder : DbcDecoder} {t₀ : SignalTransformer} (bag : InputBag) {calls : Nat} {s : State}
    (hRun : convertBag C cfg decoder router bag (State.opened calls t₀) = .ok ⟨⟩ s) :
    (∃ segments, List.Forall₂ (Converts C cfg decoder (path cfg router t₀ C)) bag.messages segments ∧
        s.writer.messages.map Prod.snd = segments.flatten) ∧
      s.framesIn = s.framesDecoded + s.framesUnknown ∧
      s.framesIn + s.passthrough = bag.messages.length ∧
      ∀ stamp : Stamp, (stamp.sec.toInt64 * 1000000000).toInt = stamp.sec.toInt * 10 ^ 9 := by
  obtain ⟨segments, hSegments, hView⟩ := (convertBag_view bag calls).ok rfl hRun
  obtain ⟨hMessages, -, -⟩ := (View.ready C cfg t₀ bag.topics).afterAll_keeps segments
  obtain ⟨hDecoded, hLength⟩ := (View.ready C cfg t₀ bag.topics).afterAll_counters segments
  rw [← hView, View.ready_rest] at hMessages hDecoded hLength
  rw [← hSegments.length_eq] at hLength
  simp only [State.view, State.opened, List.nil_append] at hMessages hDecoded hLength
  refine ⟨⟨segments.map fun seg => seg.2.map Prod.snd, ?_, ?_⟩, by omega, by omega,
    fun stamp => (timeStamp_exact stamp).1⟩
  · rw [List.forall₂_map_right_iff]
    exact hSegments.imp fun _ _ h => h.converts hConfig hRouter
  · rw [hMessages, List.map_flatMap, List.flatMap_def]

/-! ### A sample conversion -/

/-- Decimal digits are an integer, and every scalar is a string. -/
def sampleYaml : YamlCpp where
  asString
    | .scalar s => some s
    | _ => none
  asInt64
    | .scalar s => (s.foldlM (fun n c => if 48 ≤ c ∧ c ≤ 57 then some (10 * n + (c.toNat - 48))
        else none) 0).map Int64.ofNat
    | _ => none

/-- The parameters of the live node's sample. -/
def sampleParams : ParamMap :=
  List.toAList
    [⟨str "dbc_file", YamlNode.scalar "vehicle.dbc"⟩,
      ⟨"domain_names", .sequence [.scalar "chassis"]⟩,
      ⟨"domains.chassis.can_ids", .sequence [.scalar "256"]⟩,
      ⟨"promoted_signal_names", .sequence [.scalar "locked"]⟩,
      ⟨"signal_id_names", .sequence [.scalar "pressed"]⟩,
      ⟨"signal_id_unit_names", .sequence [.scalar ""]⟩]

def sampleConfig : Config where
  canTopic := "/vehicle/from_can_bus"
  domains := [⟨"chassis", "/vehicle/chassis", ⟨[256], by decide⟩⟩]
  aliases := ∅
  transforms := ∅
  signalToDomain := ∅
  schemaDomainTopics := ∅
  signalNameToId := numberNames ["pressed"]

/-- A frame with the identifier 256 at five seconds, as it is recorded. -/
def sampleRecorded : List UInt8 :=
  [0, 1, 0, 0, 5, 0, 0, 0, 0, 0, 0, 0, 1, 0, 0, 0, 0, 0, 0, 0, 0, 1, 0, 0, 0, 0, 0, 8,
    1, 1, 1, 1, 1, 1, 1, 1]

def sampleRosFrame : Frame :=
  ⟨⟨⟨5, 0⟩, ""⟩, 256, false, false, false, 8, (VehicleCanNode.sampleFrame 256).data⟩

def sampleConvertEnv : ConvertEnv where
  exprtk := ⟨fun _ => .error "", fun _ x => (.ok x, x)⟩
  deserialize bytes :=
    if bytes = sampleRecorded then .ok sampleRosFrame else .error ⟨"failed to deserialize"⟩
  fault _ := none
  schemaOrder := .listed
  topicsOrder := .listed
  order _ := .listed

def sampleDecoder : DbcDecoder :=
  ((DbcDecoder.fresh.load (.parsed (VehicleCanNode.sampleNetwork 256))).map Prod.fst).getD .fresh

def sampleRouter : SignalRouter :=
  (SignalRouter.empty.configure .listed sampleConfig.domains sampleConfig.aliases).1

/-- Two topics, one message each. -/
def sampleBag : InputBag where
  storageIdentifier := "mcap"
  topics := [⟨"/gps", "sensor_msgs/msg/NavSatFix", "cdr"⟩,
    ⟨"/vehicle/from_can_bus", "can_msgs/msg/Frame", "cdr"⟩]
  messages := [⟨"/gps", 1, [7]⟩, ⟨"/vehicle/from_can_bus", 2, sampleRecorded⟩]
  topics_nodup := by decide
  messages_topics := by decide

/-- Whether a conversion has come to its end. -/
def ends : EStateM.Result Stop State PUnit → Bool
  | .ok _ _ => true
  | .error _ _ => false

theorem exists_ok_of_ends {r : EStateM.Result Stop State PUnit} (h : ends r = true) :
    ∃ s, r = .ok ⟨⟩ s := by
  cases r with
  | ok u s => exact ⟨s, rfl⟩
  | error e s => contradiction

theorem convertBag_law_sample :
    ∃ segments, List.Forall₂ (Converts sampleConvertEnv sampleConfig sampleDecoder
      (path sampleConfig sampleRouter .empty sampleConvertEnv)) sampleBag.messages segments := by
  have hConfig : buildConfig sampleYaml sampleParams = .ok sampleConfig := rfl
  obtain ⟨s, hRun⟩ : ∃ s, convertBag sampleConvertEnv sampleConfig sampleDecoder sampleRouter
      sampleBag (State.opened 0 .empty) = .ok ⟨⟩ s := exists_ok_of_ends (by decide +kernel)
  obtain ⟨⟨segments, hSegments, -⟩, -⟩ := convertBag_law hConfig rfl sampleBag hRun
  exact ⟨segments, hSegments⟩

end Converter

end VehicleCanDecoder
