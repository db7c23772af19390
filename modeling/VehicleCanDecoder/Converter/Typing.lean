import VehicleCanDecoder.Converter.RunLaw

/-! The types of the topics of the output.  The topics of the input are registered first, and the
first registration of a name stands; so a group is written under another type exactly where the
topic of its domain is a topic of the input, other than the CAN topic, that has another type. -/

namespace VehicleCanDecoder

namespace Converter

open Hoare

/-- The message is on a topic that is registered with the type of its bytes. -/
def TypedAs (bag : InputBag) (topics : UnorderedMap ByteString TopicMetadata)
    (entry : Origin × BagMessage) : Prop :=
  ∃ topic, topics.lookup entry.2.topicName = some topic ∧
    match entry.1 with
    | .recorded => ∃ input ∈ bag.topics, input.name = entry.2.topicName ∧ topic.type = input.type
    | .generated => topic.type = kSignalGroupType

def WellTyped (bag : InputBag) (w : Writer) : Prop :=
  ∀ entry ∈ w.messages, TypedAs bag w.topics entry

/-- The topic is registered for the input, with a type other than that of the groups. -/
def Clashing (cfg : Config) (bag : InputBag) (name : ByteString) : Prop :=
  name ≠ cfg.canTopic ∧ ∃ input ∈ bag.topics, input.name = name ∧ input.type ≠ kSignalGroupType

section Registrations

variable {C : ConvertEnv} {cfg : Config} {bag : InputBag}

theorem registeredAs_input {topic : TopicMetadata} (hTopic : topic ∈ bag.topics)
    (hCan : topic.name ≠ cfg.canTopic) :
    registeredAs C cfg bag.topics topic.name = some topic := by
  have hMem : topic ∈ bag.topics.filter (·.name ≠ cfg.canTopic) :=
    List.mem_filter.mpr ⟨hTopic, decide_eq_true hCan⟩
  have hSome : ((bag.topics.filter (·.name ≠ cfg.canTopic)).find? (·.name = topic.name)).isSome :=
    List.find?_isSome.mpr ⟨topic, hMem, decide_eq_true rfl⟩
  obtain ⟨found, hFound⟩ := Option.isSome_iff_exists.mp hSome
  have hName : found.name = topic.name := by simpa using List.find?_some hFound
  have hInput : found ∈ bag.topics :=
    (List.mem_filter.mp (List.mem_of_find?_eq_some hFound)).1
  unfold registeredAs registrations
  rw [List.find?_append, hFound, List.inj_on_of_nodup_map bag.topics_nodup hInput hTopic hName]
  rfl

/-- The topic of a domain is registered with the type of the groups unless it clashes. -/
theorem registeredAs_generated {domain name : ByteString}
    (hTopic : cfg.topicFor domain = some name) :
    ∃ topic, registeredAs C cfg bag.topics name = some topic ∧
      (topic.type = kSignalGroupType ↔ ¬ Clashing cfg bag name) := by
  have hSome : (registeredAs C cfg bag.topics name).isSome :=
    registeredAs_isSome.mpr (.inr ⟨domain, hTopic⟩)
  obtain ⟨topic, hRegistered⟩ := Option.isSome_iff_exists.mp hSome
  refine ⟨topic, hRegistered, ?_⟩
  constructor
  · rintro hType ⟨hCan, input, hInput, rfl, hOther⟩
    obtain rfl := Option.some.inj ((registeredAs_input hInput hCan).symm.trans hRegistered)
    exact hOther hType
  · intro hClash
    have hName : topic.name = name := by simpa using List.find?_some hRegistered
    rcases List.mem_append.mp (List.mem_of_find?_eq_some hRegistered) with hInput | hGenerated
    · obtain ⟨hInput, hCan⟩ := List.mem_filter.mp hInput
      by_contra hOther
      exact hClash ⟨hName ▸ of_decide_eq_true hCan, topic, hInput, hName, hOther⟩
    · obtain ⟨e, -, rfl⟩ := List.mem_map.mp hGenerated
      rfl

end Registrations

section Messages

variable {C : ConvertEnv} {cfg : Config} {decoder : DbcDecoder} {router : SignalRouter}
  {t₀ : SignalTransformer} {bag : InputBag} {msg : BagMessage}

/-- A CAN frame with a signal of a domain whose topic clashes. -/
def Clashes (C : ConvertEnv) (cfg : Config) (decoder : DbcDecoder) (router : SignalRouter)
    (t₀ : SignalTransformer) (bag : InputBag) (msg : BagMessage) : Prop :=
  msg.topicName = cfg.canTopic ∧ ∃ f decoded, C.deserialize msg.serializedData = .ok f ∧
    decoder.decode f.id (payload f).1 (payload f).2 = some decoded ∧
    (∀ raw ∈ decoded, ¬ (path cfg router t₀ C).Throws f.id raw) ∧
    ∃ raw ∈ decoded, ((path cfg router t₀ C).resolve raw.name f.id).isAssigned ∧
      ∃ topic, cfg.topicFor ((path cfg router t₀ C).resolve raw.name f.id).domain = some topic ∧
        Clashing cfg bag topic

theorem Clashes.not_fails (h : Clashes C cfg decoder router t₀ bag msg) :
    ¬ Fails C cfg decoder router t₀ msg := by
  obtain ⟨-, f, decoded, hFrame, hDecode, hTransforms, -⟩ := h
  exact not_fails_of_decoded hFrame hDecode hTransforms

theorem groupMessage_typed_iff {stamp : Stamp} {domain topic : ByteString} {sg : SignalGroup}
    (hTopicFor : cfg.topicFor domain = some topic) :
    (∃ t, registeredAs C cfg bag.topics (groupMessage stamp topic sg).topicName = some t ∧
      t.type = kSignalGroupType) ↔ ¬ Clashing cfg bag topic := by
  obtain ⟨t, hRegistered, hType⟩ : ∃ t, registeredAs C cfg bag.topics topic = some t ∧
      (t.type = kSignalGroupType ↔ ¬ Clashing cfg bag topic) := registeredAs_generated hTopicFor
  rw [← hType]
  simp [groupMessage, hRegistered]

/-- What is written for a message is well typed exactly where the message does not clash. -/
theorem Segment.typed_iff {kind : Kind} {out : List (Origin × BagMessage)}
    (h : Segment C cfg decoder router t₀ (domainToTopic C.schemaOrder cfg) msg kind out)
    (hMsg : msg ∈ bag.messages) :
    (∀ entry ∈ out, TypedAs bag (View.ready C cfg t₀ bag.topics).writer.topics entry) ↔
      ¬ Clashes C cfg decoder router t₀ bag msg := by
  simp only [TypedAs, View.ready_topics]
  cases h with
  | recorded hTopic =>
    refine iff_of_true ?_ fun hClash => hTopic hClash.1
    obtain ⟨input, hInput, hName⟩ := List.mem_map.mp (bag.messages_topics msg hMsg)
    simp only [List.mem_singleton, forall_eq]
    rw [← hName, registeredAs_input hInput (hName ▸ hTopic)]
    exact ⟨input, rfl, input, hInput, rfl, rfl⟩
  | unknown hTopic hFrame hDecode =>
    apply iff_of_true (by simp)
    rintro ⟨-, f', decoded', hFrame', hDecode', -⟩
    obtain rfl := Except.ok.inj (hFrame.symm.trans hFrame')
    rw [hDecode] at hDecode'
    contradiction
  | @decoded f decoded entries hTopic hFrame hDecode hTransforms hGroups =>
    have hDomains := hGroups.mem_domains hTransforms
    constructor
    · rintro hTyped ⟨-, f', decoded', hFrame', hDecode', -, raw, hRaw, hAssigned, topic, hTopicFor,
        hClash⟩
      obtain rfl := Except.ok.inj (hFrame.symm.trans hFrame')
      obtain rfl := Option.some.inj (hDecode.symm.trans hDecode')
      obtain ⟨⟨domain, sg⟩, hEntry, rfl⟩ :=
        List.mem_map.mp ((hDomains _).mpr ⟨raw, hRaw, hAssigned, rfl⟩)
      have hOut : (Origin.generated, groupMessage f.header.stamp topic sg) ∈
          entries.flatMap (written (domainToTopic C.schemaOrder cfg) f.header.stamp) :=
        List.mem_flatMap.mpr ⟨_, hEntry, by simp [written, lookup_domainToTopic, hTopicFor]⟩
      exact (groupMessage_typed_iff hTopicFor).mp (hTyped _ hOut) hClash
    · intro hNoClash entry hOut
      obtain ⟨⟨domain, sg⟩, hEntry, hOut⟩ := List.mem_flatMap.mp hOut
      obtain ⟨topic, hTopicFor, rfl⟩ := List.mem_map.mp hOut
      rw [lookup_domainToTopic, Option.mem_toList] at hTopicFor
      refine (groupMessage_typed_iff hTopicFor).mpr fun hClash => hNoClash ?_
      obtain ⟨raw, hRaw, hAssigned, rfl⟩ := (hDomains domain).mp (List.mem_map_of_mem hEntry)
      exact ⟨hTopic, f, decoded, hFrame, hDecode, hTransforms, raw, hRaw, hAssigned, topic,
        hTopicFor, hClash⟩

end Messages

/-! ### Every run -/

section Runs

variable {C : ConvertEnv} {cfg : Config} {decoder : DbcDecoder} {router : SignalRouter}
  {t₀ : SignalTransformer} {bag : InputBag}

/-- All that a run has written: whole segments, and perhaps the first part of one more.  A run
without failing calls stops only at a message that fails by itself. -/
theorem final_progress (C : ConvertEnv) (cfg : Config) (decoder : DbcDecoder)
    (router : SignalRouter) (t₀ : SignalTransformer) (bag : InputBag) (calls : Nat) :
    let s := final (convertBag C cfg decoder router bag (State.opened calls t₀))
    (C.Faulty ∧ s.writer.messages = []) ∨
      (s.writer.topics = (View.ready C cfg t₀ bag.topics).writer.topics ∧
        ∃ done rest segments out, bag.messages = done ++ rest ∧
          List.Forall₂ (fun msg seg =>
            Segment C cfg decoder router t₀ (domainToTopic C.schemaOrder cfg) msg seg.1 seg.2)
            done segments ∧
          s.writer.messages = segments.flatMap Prod.snd ++ out ∧
          (out = [] ∨ ∃ msg ∈ rest.head?, ∃ more, Segment C cfg decoder router t₀
            (domainToTopic C.schemaOrder cfg) msg .decoded (out ++ more)) ∧
          (C.Faulty ∨ rest = [] ∨ ∃ msg ∈ rest.head?, Fails C cfg decoder router t₀ msg)) := by
  have hView := @convertBag_view C cfg decoder router t₀ bag calls
  have hNone : (View.ready C cfg t₀ bag.topics).writer.messages = [] := by
    rw [View.ready_rest]
  cases hRun : convertBag C cfg decoder router bag (State.opened calls t₀) with
  | ok =>
    obtain ⟨segments, hSegments, hAfter⟩ := hView.ok rfl hRun
    obtain ⟨hMessages, hTopics, -⟩ := (View.ready C cfg t₀ bag.topics).afterAll_keeps segments
    rw [← hAfter, hNone, List.nil_append] at hMessages
    rw [← hAfter] at hTopics
    exact .inr ⟨hTopics, bag.messages, [], segments, [], by simp, hSegments,
      hMessages.trans (List.append_nil _).symm, .inl rfl, .inr (.inl rfl)⟩
  | error =>
    rcases hView.error rfl hRun with hEarly | ⟨hKeeps, done, rest, segments, out, hSplit, hDone,
      hMessages, hPartial, hCause⟩
    · exact .inl hEarly
    · rw [hNone, List.nil_append] at hMessages
      exact .inr ⟨hKeeps.topics, done, rest, segments, out, hSplit, hDone, hMessages, hPartial,
        hCause.imp_right .inr⟩

/-- The environment with the same libraries, and whatever calls and orders. -/
def ConvertEnv.Like (C' C : ConvertEnv) : Prop :=
  C'.exprtk = C.exprtk ∧ C'.deserialize = C.deserialize

theorem ConvertEnv.Like.fails {C' : ConvertEnv} (h : C'.Like C) (msg : BagMessage) :
    Fails C' cfg decoder router t₀ msg = Fails C cfg decoder router t₀ msg := by
  unfold Fails path
  rw [h.1, h.2]

theorem ConvertEnv.Like.clashes {C' : ConvertEnv} (h : C'.Like C) (msg : BagMessage) :
    Clashes C' cfg decoder router t₀ bag msg = Clashes C cfg decoder router t₀ bag msg := by
  unfold Clashes path
  rw [h.1, h.2]

/-- An element that comes before the point where a list is cut. -/
theorem mem_of_append_eq {α : Type} {done rest done' rest' : List α} {a : α}
    (h : done ++ a :: rest = done' ++ rest') (hHead : ∀ b ∈ rest'.head?, b ∉ done ∧ b ≠ a) :
    a ∈ done' := by
  rcases List.append_eq_append_iff.mp h with ⟨l, rfl, hRest⟩ | ⟨l, rfl, rfl⟩
  · cases l with
    | nil => exact absurd rfl (hHead a (by rw [← List.nil_append rest', ← hRest]; rfl)).2
    | cons b l =>
      obtain ⟨rfl, -⟩ := List.cons.inj hRest
      simp
  · cases l with
    | nil => exact absurd rfl (hHead a rfl).2
    | cons b l => exact absurd (by simp) (hHead b rfl).1

/-- The output is well typed in every run, whatever calls fail, exactly if no frame that is reached
clashes. -/
theorem convertBag_wellTyped_iff :
    (∀ C' : ConvertEnv, C'.Like C → ∀ calls, WellTyped bag
        (final (convertBag C' cfg decoder router bag (State.opened calls t₀))).writer) ↔
      ∀ done msg rest, bag.messages = done ++ msg :: rest →
        (∀ m ∈ done, ¬ Fails C cfg decoder router t₀ m) →
          ¬ Clashes C cfg decoder router t₀ bag msg := by
  constructor
  · intro hTyped done msg rest hBag hDone hClash
    -- Without failing calls, the run gets past the frame.
    let C' : ConvertEnv := { C with fault := fun _ => none }
    have hLike : C'.Like C := ⟨rfl, rfl⟩
    have hNoFault : ¬ C'.Faulty := by rintro ⟨k, hk⟩; contradiction
    rcases final_progress C' cfg decoder router t₀ bag 0 with ⟨hFault, -⟩ |
      ⟨hTopics, done', rest', segments, out, hSplit, hSegments, hMessages, -, hCause⟩
    · exact hNoFault hFault
    have hReached : msg ∈ done' := by
      refine mem_of_append_eq (hBag.symm.trans hSplit) fun m hm => ?_
      rcases hCause with hFault | rfl | ⟨m', hm', hFails⟩
      · exact absurd hFault hNoFault
      · contradiction
      · obtain rfl := Option.some.inj (hm.symm.trans hm')
        rw [hLike.fails] at hFails
        refine ⟨fun hMem => hDone m hMem hFails, ?_⟩
        rintro rfl
        exact hClash.not_fails hFails
    obtain ⟨seg, hSeg, hSegment⟩ := (List.forall₂_exists hSegments).1 msg hReached
    refine (hSegment.typed_iff (by simp [hBag])).mp (fun entry hEntry => ?_)
      (hLike.clashes msg ▸ hClash)
    rw [← hTopics]
    apply hTyped C' hLike 0 entry
    rw [hMessages]
    exact List.mem_append_left _ (List.mem_flatMap.mpr ⟨seg, hSeg, hEntry⟩)
  · intro hNoClash C' hLike calls entry hEntry
    rcases final_progress C' cfg decoder router t₀ bag calls with ⟨-, hNone⟩ |
      ⟨hTopics, done, rest, segments, out, hSplit, hSegments, hMessages, hPartial, -⟩
    · rw [hNone] at hEntry
      contradiction
    have hDone : ∀ m ∈ done, ¬ Fails C cfg decoder router t₀ m := by
      intro m hm
      obtain ⟨seg, -, hSegment⟩ := (List.forall₂_exists hSegments).1 m hm
      rw [← hLike.fails]
      exact hSegment.not_fails
    rw [hMessages] at hEntry
    rw [hTopics]
    rcases List.mem_append.mp hEntry with hEntry | hEntry
    · obtain ⟨seg, hSeg, hEntry⟩ := List.mem_flatMap.mp hEntry
      obtain ⟨msg, hMsg, hSegment⟩ := (List.forall₂_exists hSegments).2 seg hSeg
      obtain ⟨before, after, rfl⟩ := List.append_of_mem hMsg
      refine (hSegment.typed_iff (by simp [hSplit])).mpr ?_ entry hEntry
      rw [hLike.clashes]
      exact hNoClash before msg (after ++ rest) (by simp [hSplit]) fun m hm => hDone m (by simp [hm])
    · rcases hPartial with rfl | ⟨msg, hMsg, more, hSegment⟩
      · contradiction
      · cases rest with
        | nil => contradiction
        | cons m rest =>
          obtain rfl := Option.some.inj hMsg
          refine (hSegment.typed_iff (by simp [hSplit])).mpr ?_ entry (List.mem_append_left _ hEntry)
          rw [hLike.clashes]
          exact hNoClash done m rest hSplit hDone

end Runs

/-- The topic of the domain is recorded with another type. -/
def clashingBag : InputBag where
  storageIdentifier := "mcap"
  topics := [⟨"/vehicle/chassis", "std_msgs/msg/String", "cdr"⟩,
    ⟨"/vehicle/from_can_bus", "can_msgs/msg/Frame", "cdr"⟩]
  messages := [⟨"/vehicle/from_can_bus", 2, sampleRecorded⟩]
  topics_nodup := by decide
  messages_topics := by decide

theorem convertBag_illTyped :
    buildConfig sampleYaml sampleParams = .ok sampleConfig ∧
      ∃ s, convertBag sampleConvertEnv sampleConfig sampleDecoder sampleRouter clashingBag
        (State.opened 0 .empty) = .ok ⟨⟩ s ∧ ¬ WellTyped clashingBag s.writer := by
  refine ⟨rfl, ?_⟩
  let types (s : State) : List (Origin × Option ByteString) := s.writer.messages.map fun entry =>
    (entry.1, (s.writer.topics.lookup entry.2.topicName).map TopicMetadata.type)
  have hTypes : types (final (convertBag sampleConvertEnv sampleConfig sampleDecoder sampleRouter
      clashingBag (State.opened 0 .empty))) = [(.generated, some (str "std_msgs/msg/String"))] := by
    decide +kernel
  obtain ⟨s, hRun⟩ : ∃ s, convertBag sampleConvertEnv sampleConfig sampleDecoder sampleRouter
      clashingBag (State.opened 0 .empty) = .ok ⟨⟩ s := exists_ok_of_ends (by decide +kernel)
  refine ⟨s, hRun, fun hTyped => ?_⟩
  rw [hRun, final] at hTypes
  obtain ⟨⟨origin, msg⟩, hMessages, hEntry⟩ := List.map_eq_singleton_iff.mp hTypes
  obtain ⟨rfl, hType⟩ := Prod.mk.inj hEntry
  obtain ⟨topic, hLookup, hGenerated⟩ := hTyped (.generated, msg) (by simp [hMessages])
  simp only [hLookup, Option.map_some, Option.some.injEq] at hType
  simp only at hGenerated
  rw [hGenerated] at hType
  exact absurd hType (by decide)

end Converter

end VehicleCanDecoder
