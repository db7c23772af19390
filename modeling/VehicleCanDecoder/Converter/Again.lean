import VehicleCanDecoder.Converter.Replay
import VehicleCanDecoder.Converter.Typing

/-! Converting what the converter has written: a second conversion copies the bag. -/

namespace VehicleCanDecoder

open Hoare

namespace Converter

/-- A bag with the contents of a writer that has been closed; its messages may come back in another
order. -/
structure ReadsBack (w : Writer) (bag : InputBag) : Prop where
  messages : bag.messages.Perm (w.messages.map Prod.snd)
  topics : ∀ topic, topic ∈ bag.topics ↔ w.topics.lookup topic.name = some topic

section Written

variable {C : ConvertEnv} {cfg : Config} {decoder : DbcDecoder} {router : SignalRouter}
  {t₀ : SignalTransformer} {topics : List TopicMetadata}

/-- Unless a domain is to publish on the CAN topic, it is not registered. -/
theorem registeredAs_off_canTopic (hCan : ∀ domain, cfg.topicFor domain ≠ some cfg.canTopic)
    {name : ByteString} (h : (registeredAs C cfg topics name).isSome) : name ≠ cfg.canTopic := by
  rcases registeredAs_isSome.mp h with ⟨hName, -⟩ | ⟨domain, hDomain⟩
  · exact hName
  · exact fun hEq => hCan domain (hEq ▸ hDomain)

/-- What is written is on a registered topic. -/
theorem Segment.registered {msg : BagMessage} {kind : Kind} {out : List (Origin × BagMessage)}
    (hMsg : msg.topicName ∈ topics.map TopicMetadata.name)
    (h : Segment C cfg decoder router t₀ (domainToTopic C.schemaOrder cfg) msg kind out) :
    ∀ m ∈ out, (registeredAs C cfg topics m.2.topicName).isSome := by
  cases h with
  | recorded hTopic => simpa using registeredAs_isSome.mpr (.inl ⟨hTopic, hMsg⟩)
  | unknown => simp
  | decoded =>
    intro m hm
    obtain ⟨e, -, hm⟩ := List.mem_flatMap.mp hm
    obtain ⟨topic, hTopic, rfl⟩ := List.mem_map.mp hm
    have hFor := Option.mem_toList.mp hTopic
    rw [lookup_domainToTopic] at hFor
    exact registeredAs_isSome.mpr (.inr ⟨e.1, hFor⟩)

end Written

/-- A message that is not on the CAN topic is copied. -/
theorem Segment.copies {C : ConvertEnv} {cfg : Config} {decoder : DbcDecoder}
    {router : SignalRouter} {t₀ : SignalTransformer} {topicOf : UnorderedMap ByteString ByteString}
    {msg : BagMessage} {kind : Kind} {out : List (Origin × BagMessage)}
    (hTopic : msg.topicName ≠ cfg.canTopic)
    (h : Segment C cfg decoder router t₀ topicOf msg kind out) :
    kind = .recorded ∧ out = [(.recorded, msg)] := by
  cases h with
  | recorded => exact ⟨rfl, rfl⟩
  | unknown hHere => exact absurd hHere hTopic
  | decoded hHere => exact absurd hHere hTopic

/-- A loop over such messages copies all of them. -/
theorem segments_copy {C : ConvertEnv} {cfg : Config} {decoder : DbcDecoder}
    {router : SignalRouter} {t₀ : SignalTransformer} {topicOf : UnorderedMap ByteString ByteString}
    {messages : List BagMessage} {segments : List (Kind × List (Origin × BagMessage))}
    (h : List.Forall₂ (fun msg seg => Segment C cfg decoder router t₀ topicOf msg seg.1 seg.2)
      messages segments)
    (hTopics : ∀ msg ∈ messages, msg.topicName ≠ cfg.canTopic) :
    segments = messages.map fun msg => (.recorded, [(.recorded, msg)]) := by
  induction h with
  | nil => rfl
  | @cons msg seg messages segments hSegment _ ih =>
    obtain ⟨hKind, hOut⟩ := hSegment.copies (hTopics msg List.mem_cons_self)
    rw [List.map_cons, ih fun m hm => hTopics m (List.mem_cons_of_mem msg hm), ← hKind, ← hOut]

theorem View.afterAll_copies (v : View) (messages : List BagMessage) :
    v.afterAll (messages.map fun msg => (.recorded, [(.recorded, msg)])) =
      { v with
        writer := { v.writer with messages := v.writer.messages ++ messages.map (.recorded, ·) }
        passthrough := v.passthrough + messages.length } := by
  induction messages using List.reverseRecOn with
  | nil => simp [afterAll]
  | append_singleton rest msg ih =>
    rw [List.map_append, List.map_singleton, View.afterAll_concat, ih]
    simp [View.after, View.wrote, Nat.add_assoc]

section Again

variable {C C' : ConvertEnv} {cfg : Config} {decoder decoder' : DbcDecoder}
  {router router' : SignalRouter} {t₀ t₀' : SignalTransformer} {bag bag' : InputBag} {s : State}
  {calls : Nat}

/-- What a conversion of a bag with these topics leaves in its writer. -/
structure Output (C : ConvertEnv) (cfg : Config) (inputs : List TopicMetadata) (w : Writer) :
    Prop where
  topics : ∀ name, w.topics.lookup name = registeredAs C cfg inputs name
  messages : ∀ m ∈ w.messages, (registeredAs C cfg inputs m.2.topicName).isSome

theorem output_of_run
    (hRun : convertBag C cfg decoder router bag (State.opened calls t₀) = .ok ⟨⟩ s) :
    Output C cfg bag.topics s.writer := by
  obtain ⟨segments, hSegments, hView⟩ := (convertBag_view bag calls).ok rfl hRun
  obtain ⟨hMessages, hTopics, -⟩ := (View.ready C cfg t₀ bag.topics).afterAll_keeps segments
  have hNone : (View.ready C cfg t₀ bag.topics).writer.messages = [] := by rw [View.ready_rest]
  rw [← hView] at hMessages hTopics
  rw [hNone, List.nil_append] at hMessages
  refine ⟨fun name => ?_, fun m hm => ?_⟩
  · have hReady : (View.ready C cfg t₀ bag.topics).writer.topics.lookup name =
        registeredAs C cfg bag.topics name := View.ready_topics bag.topics name
    rw [← hReady, ← hTopics]
    rfl
  · have hMem : m ∈ segments.flatMap Prod.snd := by
      rw [← hMessages]
      exact hm
    obtain ⟨seg, hSeg, hm⟩ := List.mem_flatMap.mp hMem
    obtain ⟨msg, hMsg, hSegment⟩ := (List.forall₂_exists hSegments).2 seg hSeg
    exact hSegment.registered (bag.messages_topics msg hMsg) m hm

/-- The name of a registered topic is the name that it is registered by. -/
theorem registeredAs_name {inputs : List TopicMetadata} {name : ByteString} {topic : TopicMetadata}
    (h : registeredAs C cfg inputs name = some topic) : topic.name = name := by
  simpa using List.find?_some h

/-- The output of a conversion can be read back as a bag. -/
theorem Output.exists_readsBack {inputs : List TopicMetadata} {w : Writer}
    (h : Output C cfg inputs w) : ∃ bag, ReadsBack w bag := by
  have hName : ∀ e ∈ w.topics.items .listed, e.2.name = e.1 := fun e he =>
    registeredAs_name ((h.topics e.1).symm.trans ((w.topics.mem_items .listed e.1 e.2).mp he))
  have hNames : ((w.topics.items .listed).map Prod.snd).map TopicMetadata.name =
      (w.topics.items .listed).map Prod.fst := by
    rw [List.map_map]
    exact List.map_congr_left hName
  refine ⟨⟨"", (w.topics.items .listed).map Prod.snd, w.messages.map Prod.snd, ?_, ?_⟩,
    .refl _, fun topic => ?_⟩
  · rw [hNames]
    exact w.topics.items_keys_nodup .listed
  · intro m hm
    obtain ⟨o, ho, rfl⟩ := List.mem_map.mp hm
    obtain ⟨topic, hTopic⟩ := Option.isSome_iff_exists.mp (h.messages o ho)
    have hItem := (w.topics.mem_items .listed o.2.topicName topic).mpr
      ((h.topics _).trans hTopic)
    exact List.mem_map.mpr ⟨topic, List.mem_map.mpr ⟨_, hItem, rfl⟩, registeredAs_name hTopic⟩
  · rw [List.mem_map]
    constructor
    · rintro ⟨e, he, rfl⟩
      rw [hName e he]
      exact (w.topics.mem_items .listed e.1 e.2).mp he
    · exact fun hTopic => ⟨_, (w.topics.mem_items .listed topic.name topic).mpr hTopic, rfl⟩

/-- The topics are registered a second time as they were. -/
theorem Output.registeredAs_again (hCan : ∀ domain, cfg.topicFor domain ≠ some cfg.canTopic)
    {inputs : List TopicMetadata} {w : Writer} (h : Output C cfg inputs w) (hBack : ReadsBack w bag)
    (name : ByteString) : registeredAs C' cfg bag.topics name = w.topics.lookup name := by
  cases hName : w.topics.lookup name with
  | some topic =>
    have hHere := (h.topics name).symm.trans hName
    obtain rfl := registeredAs_name hHere
    exact registeredAs_input ((hBack.topics topic).mpr hName)
      (registeredAs_off_canTopic hCan (Option.isSome_of_eq_some hHere))
  | none =>
    have hNone := (h.topics name).symm.trans hName
    rw [← Option.not_isSome_iff_eq_none, registeredAs_isSome]
    rintro (⟨-, hMem⟩ | hDomain)
    · obtain ⟨topic, hTopic, rfl⟩ := List.mem_map.mp hMem
      rw [(hBack.topics topic).mp hTopic] at hName
      contradiction
    · have hSome : (registeredAs C cfg inputs name).isSome := registeredAs_isSome.mpr (.inr hDomain)
      rw [hNone] at hSome
      contradiction

/-- Unless a domain is to publish on the CAN topic, the output of a conversion is a bag that the
converter copies, with whatever decoder and transforms: the same messages in the order in which they
are read, and the same topics.  Where no call fails, the second conversion does end. -/
theorem convertBag_again (hCan : ∀ domain, cfg.topicFor domain ≠ some cfg.canTopic)
    (hRun : convertBag C cfg decoder router bag (State.opened calls t₀) = .ok ⟨⟩ s) :
    (∃ bag', ReadsBack s.writer bag') ∧ ∀ bag', ReadsBack s.writer bag' →
      ∀ (C' : ConvertEnv) (decoder' : DbcDecoder) (router' : SignalRouter)
        (t₀' : SignalTransformer) (calls' : Nat),
      ((∀ k, C'.fault k = none) →
        ∃ s', convertBag C' cfg decoder' router' bag' (State.opened calls' t₀') = .ok ⟨⟩ s') ∧
      ∀ s', convertBag C' cfg decoder' router' bag' (State.opened calls' t₀') = .ok ⟨⟩ s' →
        s'.writer.messages = bag'.messages.map (.recorded, ·) ∧
        (∀ name, s'.writer.topics.lookup name = s.writer.topics.lookup name) ∧
        s'.framesIn = 0 ∧ s'.groupsOut = 0 ∧ s'.passthrough = s.writer.messages.length := by
  have hOutput := output_of_run hRun
  refine ⟨hOutput.exists_readsBack, fun bag' hBack C' decoder' router' t₀' calls' => ?_⟩
  have hOff : ∀ msg ∈ bag'.messages, msg.topicName ≠ cfg.canTopic := by
    intro msg hMsg
    obtain ⟨m, hm, rfl⟩ := List.mem_map.mp (hBack.messages.mem_iff.mp hMsg)
    exact registeredAs_off_canTopic hCan (hOutput.messages m hm)
  refine ⟨fun hFault => convertBag_ends bag' calls' hFault fun msg hMsg hFails =>
    hOff msg hMsg hFails.1, fun s' hRun' => ?_⟩
  obtain ⟨segments, hSegments, hView⟩ := (convertBag_view bag' calls').ok rfl hRun'
  obtain rfl := segments_copy hSegments hOff
  have hTopics := (output_of_run hRun').topics
  rw [View.afterAll_copies, View.ready_rest] at hView
  refine ⟨congrArg (fun v => v.writer.messages) hView, fun name => ?_,
    congrArg View.framesIn hView, congrArg View.groupsOut hView, ?_⟩
  · rw [hTopics, hOutput.registeredAs_again hCan hBack]
  · rw [← List.length_map (f := Prod.snd), ← hBack.messages.length_eq]
    exact (congrArg View.passthrough hView).trans (Nat.zero_add _)

end Again

theorem convertBag_again_sample : ∃ (s : State) (bag' : InputBag) (s' : State),
    convertBag sampleConvertEnv sampleConfig sampleDecoder sampleRouter sampleBag
      (State.opened 0 .empty) = .ok ⟨⟩ s ∧
    convertBag sampleConvertEnv sampleConfig sampleDecoder sampleRouter bag'
      (State.opened 0 .empty) = .ok ⟨⟩ s' ∧
    bag'.messages.Perm (s.writer.messages.map Prod.snd) ∧
    s'.writer.messages = bag'.messages.map (.recorded, ·) := by
  obtain ⟨s, hRun⟩ : ∃ s, convertBag sampleConvertEnv sampleConfig sampleDecoder sampleRouter
      sampleBag (State.opened 0 .empty) = .ok ⟨⟩ s := exists_ok_of_ends (by decide +kernel)
  have hCan : ∀ domain, sampleConfig.topicFor domain ≠ some sampleConfig.canTopic := by
    intro domain hTopic
    rw [Config.topicFor, show sampleConfig.schemaDomainTopics.lookup domain = none from rfl,
      Option.none_or] at hTopic
    obtain ⟨dc, hDomain, hEq⟩ := Option.map_eq_some_iff.mp hTopic
    have hMem := List.mem_of_getLast? hDomain
    obtain rfl := List.mem_singleton.mp (List.mem_filter.mp hMem).1
    exact absurd hEq (by decide)
  obtain ⟨⟨bag', hBack⟩, hAgain⟩ := convertBag_again hCan hRun
  have hSecond := hAgain bag' hBack sampleConvertEnv sampleDecoder sampleRouter .empty 0
  obtain ⟨s', hRun'⟩ := hSecond.1 fun _ => rfl
  exact ⟨s, bag', s', hRun, hRun', hBack.messages, (hSecond.2 s' hRun').1⟩

end Converter

end VehicleCanDecoder
